import CommandSpec.CommandLine.Folder

/-! What writing a file and making folders leave as they were. A written file is found again
under the path it was written to (`Folder.open?_write`), and can be written again; files at other
places stay, and making folders changes no file. -/
namespace CommandSpec.CommandLine.Folder

theorem file?_put (f : Folder) (place other : List String) (content : ByteArray) :
    (f.put place content).file? other =
      if other = place then some content else f.file? other := by
  have hkept : (f.files.filter (·.1 != place)).lookup other =
      if other = place then none else f.files.lookup other := by
    induction f.files with
    | nil => simp
    | cons file files ih =>
      obtain ⟨here, held⟩ := file
      by_cases hhere : here = place
      · rw [List.filter_cons_of_neg (by simp [hhere]), ih, List.lookup_cons, hhere]
        by_cases hother : other = place
        · rw [if_pos hother, if_pos hother]
        · rw [if_neg hother, if_neg hother, beq_false_of_ne hother]
      · rw [List.filter_cons_of_pos (by simp [hhere]), List.lookup_cons, List.lookup_cons, ih]
        by_cases hother : other = place
        · rw [if_pos hother, if_pos hother, hother, beq_false_of_ne (Ne.symm hhere)]
        · rw [if_neg hother, if_neg hother]
  unfold put file?
  rw [List.lookup_cons, hkept]
  by_cases hother : other = place
  · simp [hother]
  · rw [if_neg hother, if_neg hother, beq_false_of_ne hother]

/-- Where a path leads does not depend on what files hold. -/
theorem locate_put (f : Folder) (place start found : List String) (content : ByteArray)
    (parts : List String) (h : f.locate start parts = .ok found) :
    (f.put place content).locate start parts = .ok found := by
  induction parts generalizing start with
  | nil => exact h
  | cons part rest ih =>
    unfold locate at h ⊢
    dsimp only at h ⊢
    by_cases hrest : rest.isEmpty = true
    · rw [if_pos hrest] at h ⊢
      exact h
    · rw [if_neg hrest] at h ⊢
      by_cases hfolder : f.hasFolder (if part == ".." then start.dropLast else start ++ [part])
      · rw [if_pos hfolder] at h
        exact (if_pos hfolder).trans (ih _ h)
      · rw [if_neg hfolder] at h
        cases h

theorem write_eq_ok_iff (f f' : Folder) (path : String) (content : ByteArray) :
    f.write path content = .ok f' ↔ ∃ place, f.locate [] (pathParts path) = .ok place ∧
      f.hasFolder place = false ∧ endsAsFolder path = false ∧ f' = f.put place content := by
  unfold write
  cases hl : f.locate [] (pathParts path) with
  | error e => simp [bind, Except.bind]
  | ok place =>
    cases hfolder : f.hasFolder place <;> cases hends : endsAsFolder path <;>
      simp [bind, Except.bind, pure, Except.pure, throw, throwThe, MonadExceptOf.throw, hfolder,
        @eq_comm _ f']

theorem open?_eq_some_iff (f : Folder) (path : String) (content : ByteArray) :
    f.open? path = .ok (some content) ↔ ∃ place, f.locate [] (pathParts path) = .ok place ∧
      f.hasFolder place = false ∧ endsAsFolder path = false ∧ f.file? place = some content := by
  unfold open?
  cases hl : f.locate [] (pathParts path) with
  | error e => simp [bind, Except.bind]
  | ok place =>
    cases hfolder : f.hasFolder place <;> cases hends : endsAsFolder path <;>
      cases hfile : f.file? place <;>
      simp [bind, Except.bind, pure, Except.pure, throw, throwThe, MonadExceptOf.throw, hfolder,
        hfile]

/-- A written file is there, and can be written again. -/
theorem open?_write (f f' : Folder) (path : String) (content : ByteArray)
    (h : f.write path content = .ok f') :
    f'.open? path = .ok (some content) ∧ ∀ more, ∃ f'', f'.write path more = .ok f'' := by
  obtain ⟨place, hl, hfolder, hends, rfl⟩ := (write_eq_ok_iff ..).mp h
  have hl' := f.locate_put place [] place content _ hl
  refine ⟨(open?_eq_some_iff ..).mpr ⟨place, hl', hfolder, hends, ?_⟩, fun more => ?_⟩
  · rw [file?_put, if_pos rfl]
  · exact ⟨_, (write_eq_ok_iff ..).mpr ⟨place, hl', hfolder, hends, rfl⟩⟩

theorem makeOne_files (f f' : Folder) (place : List String) (h : f.makeOne place = .ok f') :
    f'.files = f.files := by
  unfold makeOne at h
  split at h
  · cases h
    rfl
  · split at h
    · cases h
    · cases h
      rfl

theorem makeFrom_files (f f' : Folder) (place parts : List String)
    (h : f.makeFrom place parts = .ok f') : f'.files = f.files := by
  induction parts generalizing f place with
  | nil =>
    cases h
    rfl
  | cons part rest ih =>
    unfold makeFrom at h
    dsimp only at h
    split at h
    · rename_i f₁ hone
      exact (ih f₁ _ h).trans (f.makeOne_files f₁ _ hone)
    · cases h

end CommandSpec.CommandLine.Folder
