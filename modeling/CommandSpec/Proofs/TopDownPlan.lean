import CommandSpec.Proofs.Planning

/-! A plan that is found is the one read off the tree from the top down, and its imports are
the two fixed ones and those that the types of its fields need, in ascending order. -/
namespace CommandSpec

/-! ## Names in ascending order -/

theorem mem_insertName (name other : String) (names : List String) :
    other ∈ insertName name names ↔ other = name ∨ other ∈ names := by
  induction names with
  | nil => simp [insertName]
  | cons head rest ih =>
    unfold insertName
    split
    · simp
    · split
      · rename_i heq
        subst heq
        simp
      · simp only [List.mem_cons, ih]
        exact or_left_comm

theorem insertName_pairwise (name : String) (names : List String)
    (h : names.Pairwise (· < ·)) : (insertName name names).Pairwise (· < ·) := by
  induction names with
  | nil => simp [insertName]
  | cons head rest ih =>
    obtain ⟨hhead, hrest⟩ := List.pairwise_cons.mp h
    unfold insertName
    split
    · rename_i hlt
      refine List.pairwise_cons.mpr ⟨fun other ho => ?_, h⟩
      rcases List.mem_cons.mp ho with rfl | ho
      · exact hlt
      · exact String.lt_trans hlt (hhead other ho)
    · split
      · exact h
      · rename_i hlt hne
        refine List.pairwise_cons.mpr ⟨fun other ho => ?_, ih hrest⟩
        rcases (mem_insertName name other rest).mp ho with rfl | ho
        · exact Decidable.byContradiction fun hn => hne (String.le_antisymm hn hlt)
        · exact hhead other ho

theorem mem_insertNames (other : String) (names more : List String) :
    other ∈ insertNames names more ↔ other ∈ names ∨ other ∈ more := by
  induction more generalizing names with
  | nil => simp [insertNames]
  | cons name more ih =>
    have h := ih (insertName name names)
    rw [mem_insertName] at h
    rw [List.mem_cons, or_left_comm, ← or_assoc]
    exact h

theorem insertNames_pairwise (names more : List String) (h : names.Pairwise (· < ·)) :
    (insertNames names more).Pairwise (· < ·) := by
  induction more generalizing names with
  | nil => exact h
  | cons name more ih => exact ih _ (insertName_pairwise name names h)

/-! ## Imports and field types -/

/-- The import that a type needs, told from its text. -/
private def importOfText (text : String) : Option String :=
  if text = "Duration" ∨ text = "Option<Duration>" then some "std::time::Duration"
  else if text = "SystemTime" ∨ text = "Option<SystemTime>" then some "std::time::SystemTime"
  else none

/-- Types of one text need one import. -/
theorem FieldType.importPath?_congr (t t' : FieldType) (h : t.typeText = t'.typeText) :
    t.scalar.importPath? = t'.scalar.importPath? := by
  have htext (t : FieldType) : t.scalar.importPath? = importOfText t.typeText := by
    obtain ⟨scalar, kind⟩ := t
    cases scalar <;> cases kind <;> decide
  rw [htext t, htext t', h]

/-- The import of a sound option is the one that any type of its field's text needs. -/
theorem OptionSpec.importPath?_eq_some_iff (o : OptionSpec) (hs : (OptionEntry.inline o).Sound)
    (path : String) :
    o.importPath? = some path ↔ ∃ type : FieldType,
      o.field.typeText = type.typeText ∧ type.scalar.importPath? = some path := by
  obtain ⟨-, type, ht⟩ := (OptionEntry.sound_inline_iff o []).mp hs
  obtain ⟨hfield, himport⟩ := o.field_eq_of_fieldType [] type ht
  rw [hfield, himport]
  constructor
  · intro h
    exact ⟨type, rfl, h⟩
  · rintro ⟨type', htext, h⟩
    exact (FieldType.importPath?_congr type type' htext).trans h

theorem mem_inlineOptions (o : OptionSpec) (options : List OptionEntry) :
    o ∈ inlineOptions options ↔ .inline o ∈ options := by
  unfold inlineOptions
  rw [List.mem_filterMap]
  constructor
  · rintro ⟨entry, he, h⟩
    cases entry with
    | reference key => cases h
    | inline o' =>
      cases h
      exact he
  · intro h
    exact ⟨.inline o, h, rfl⟩

/-- A sound record imports what the types of its fields need. -/
theorem DeclaredRecord.mem_importPaths (r : DeclaredRecord) (hs : r.Sound) (path : String) :
    path ∈ r.importPaths ↔ ∃ f ∈ r.record.fields, ∃ type : FieldType,
      f.typeText = type.typeText ∧ type.scalar.importPath? = some path := by
  simp only [importPaths, record, List.mem_filterMap, List.mem_map]
  constructor
  · rintro ⟨o, ho, h⟩
    have hso := hs.1 _ ((mem_inlineOptions o r.options).mp ho)
    exact ⟨o.field, ⟨o, ho, rfl⟩, (o.importPath?_eq_some_iff hso path).mp h⟩
  · rintro ⟨_, ⟨o, ho, rfl⟩, h⟩
    have hso := hs.1 _ ((mem_inlineOptions o r.options).mp ho)
    exact ⟨o, ho, (o.importPath?_eq_some_iff hso path).mpr h⟩

/-- **Planning is inheritance from the top down.** The methods, records and table rows of a
plan are those of the top-down recursion in content and order; the imports are the runtime's
two names and what the field types of the planned records need. -/
theorem Plan.build_eq_topDownPlan (document : Document) (config : Config) (p : Plan)
    (h : Plan.build document config = .ok p) :
    p = document.topDownPlan config ∧ p.imports.Pairwise (· < ·) ∧
      ∀ path, path ∈ p.imports ↔
        path = config.runtimeText ++ "::CommandError" ∨
        path = config.runtimeText ++ "::Context" ∨
        ∃ r ∈ p.records, ∃ f ∈ r.fields, ∃ type : FieldType,
          f.typeText = type.typeText ∧ type.scalar.importPath? = some path := by
  obtain ⟨hs, -, -, rfl⟩ := (Plan.build_eq_ok_iff ..).mp h
  refine ⟨rfl, insertNames_pairwise _ _ List.Pairwise.nil, fun path => ?_⟩
  have hneeded : path ∈ (document.declaredRecords config).flatMap DeclaredRecord.importPaths ↔
      ∃ r ∈ (document.topDownPlan config).records, ∃ f ∈ r.fields, ∃ type : FieldType,
        f.typeText = type.typeText ∧ type.scalar.importPath? = some path := by
    rw [List.mem_flatMap]
    constructor
    · rintro ⟨d, hd, hp⟩
      exact ⟨d.record, List.mem_map_of_mem hd, (d.mem_importPaths (hs d hd) path).mp hp⟩
    · rintro ⟨r, hr, hf⟩
      obtain ⟨d, hd, rfl⟩ := List.mem_map.mp hr
      exact ⟨d, hd, (d.mem_importPaths (hs d hd) path).mpr hf⟩
  rw [← hneeded]
  exact (mem_insertNames path [] _).trans (by simp [Document.importPaths])

/-- A document in which `a BC` and `a b c` share the type identifier `ABC`; only the former
declares options, so `a b c d` has to go on to the record of `a`. -/
def sharedIdentifier : Document where
  options := [.inline { name := "verbose", typeTag := "bool" }]
  commands := ({} : Commands).insert "a"
    { options := [.inline { name := "wait", typeTag := "duration", required := true }]
      commands := (({} : Commands).insert "BC"
          { options := [.inline { name := "port", typeTag := "int" }]
            commands := ({} : Commands).insert "x" {} }).insert "b"
          { commands := ({} : Commands).insert "c"
              { commands := ({} : Commands).insert "d" {} } } }

theorem sharedIdentifier_planned :
    ∃ p, Plan.build sharedIdentifier { commandTable := true } = .ok p ∧
      p = sharedIdentifier.topDownPlan { commandTable := true } ∧
      p.methods.map (fun m => (m.name, m.options)) =
        [("hook_before", some "AllCommand"), ("hook_after", some "AllCommand"),
         ("a_hook_before", some "A"), ("a_hook_after", some "A"),
         ("a_bc_hook_before", some "ABC"), ("a_bc_hook_after", some "ABC"),
         ("a_bc_x", some "ABC"), ("a_b_hook_before", some "A"), ("a_b_hook_after", some "A"),
         ("a_b_c_hook_before", some "A"), ("a_b_c_hook_after", some "A"),
         ("a_b_c_d", some "A")] ∧
      "std::time::Duration" ∈ p.imports := by
  have h : Plan.build sharedIdentifier { commandTable := true } =
      .ok (sharedIdentifier.topDownPlan { commandTable := true }) :=
    eq_ok_of_toOption (by decide +kernel)
  obtain ⟨hp, -, himports⟩ := Plan.build_eq_topDownPlan _ _ _ h
  refine ⟨_, h, hp, by decide +kernel, (himports _).mpr (Or.inr (Or.inr ?_))⟩
  exact ⟨⟨"A", some ⟨"AllCommand", "all_command"⟩, [⟨"wait", "wait", "Duration", none⟩]⟩,
    by decide +kernel, _, List.mem_singleton_self _, ⟨.duration, .concrete⟩, rfl, rfl⟩

end CommandSpec
