import CommandSpec.Proofs.VacantLines
import CommandSpec.Yaml.Lexeme

/-! Reading within a line. The readers of blanks, comments and directives never go past a line
break (`Cursor.Along`), so a directive takes up the whole line it stands on and nothing more
(`readDirective_line`). -/
namespace CommandSpec.Yaml

/-! ## Moving along a line -/

namespace Cursor

theorem atLineEnd_of_peek {c : Cursor} (h : ∀ x, c.peek? = some x → isBreak x = true) :
    atLineEnd c.rest = true := by
  obtain ⟨rest, mark, limit⟩ := c
  cases rest with
  | nil => rfl
  | cons x rest => exact h x rfl

theorem spanFrom_rest (p : Char → Bool) (read : List Char) (m : Mark) (cs : List Char) :
    (spanFrom p read m cs).2.2 = cs.dropWhile p := by
  induction cs generalizing read m with
  | nil => rfl
  | cons c rest ih =>
    unfold spanFrom
    split
    · rw [ih, List.dropWhile_cons_of_pos ‹_›]
    · rw [List.dropWhile_cons_of_neg ‹_›]

@[simp] theorem span_rest (p : Char → Bool) (c : Cursor) :
    (c.span p).2.rest = c.rest.dropWhile p := spanFrom_rest p [] c.mark c.rest

theorem skipWhile_of_head {p : Char → Bool} {c : Cursor} (h : ∀ x, c.peek? = some x → p x = false) :
    c.skipWhile p = c := by
  obtain ⟨rest, mark, limit⟩ := c
  cases rest with
  | nil => rfl
  | cons x rest =>
    have hx : p x = false := h x rfl
    simp [skipWhile, span, spanFrom, hx]

/-- Going on behind a cursor without leaving its line. -/
structure Along (c c' : Cursor) : Prop where
  lines : nextLines c'.rest = nextLines c.rest
  length : c'.rest.length ≤ c.rest.length
  limit : c'.limit = c.limit

namespace Along

theorem refl (c : Cursor) : c.Along c := ⟨rfl, Nat.le_refl _, rfl⟩

theorem trans {a b c : Cursor} (h : a.Along b) (h' : b.Along c) : a.Along c :=
  ⟨h'.lines.trans h.lines, Nat.le_trans h'.length h.length, h'.limit.trans h.limit⟩

theorem span {p : Char → Bool} (hp : ∀ x, p x = true → isBreak x = false) (c : Cursor) :
    c.Along (c.span p).2 := by
  refine ⟨?_, ?_, rfl⟩
  · rw [span_rest, nextLines_dropWhile hp]
  · rw [span_rest]
    exact (List.dropWhile_suffix p).length_le

theorem skip {c : Cursor} {x : Char} (hx : c.peek? = some x) (hbreak : isBreak x = false) :
    c.Along c.skip := by
  obtain ⟨rest, mark, limit⟩ := c
  obtain ⟨rest, rfl⟩ : ∃ rest', rest = x :: rest' := List.head?_eq_some_iff.mp hx
  exact ⟨(nextLines_cons hbreak rest).symm, Nat.le_succ _, rfl⟩

end Along

theorem readBreak_rest {c : Cursor} (h : atLineEnd c.rest = true) :
    c.readBreak.2.rest = nextLines c.rest := by
  rw [nextLines_of_atLineEnd h]
  unfold readBreak
  split
  · rename_i rest heq
    rw [heq]
    rfl
  · rename_i b rest hpair heq
    have hb : isBreak b = true := by simpa [heq, atLineEnd] using h
    rw [if_pos hb, heq]
    exact (dropBreak.eq_2 b rest hpair).symm
  · rename_i heq
    rw [heq]
    rfl

@[simp] theorem readBreak_limit (c : Cursor) : c.readBreak.2.limit = c.limit := by
  unfold readBreak
  split
  · rfl
  · split <;> rfl
  · rfl

theorem readBreak_column {c : Cursor} (h : atLineEnd c.rest = true) (hrest : c.rest ≠ []) :
    c.readBreak.2.mark.column = 0 := by
  unfold readBreak
  split
  · rfl
  · rename_i b rest _ heq
    have hb : isBreak b = true := by simpa [heq, atLineEnd] using h
    rw [if_pos hb]
    rfl
  · contradiction

end Cursor

/-! ## Comments -/

theorem Cursor.Along.skipComment (c : Cursor) : c.Along (skipComment c) := by
  unfold Yaml.skipComment
  split
  · exact .span (by simp) c
  · exact .refl c

theorem skipComment_of_ne {c : Cursor} (h : c.peek? ≠ some '#') : skipComment c = c :=
  if_neg (by simpa using h)

theorem atLineEnd_dropWhile (cs : List Char) :
    atLineEnd (cs.dropWhile (!isBreak ·)) = true := by
  have hhead := List.head?_dropWhile_not (!isBreak ·) cs
  cases h : cs.dropWhile (!isBreak ·) with
  | nil => rfl
  | cons x rest => simpa [h, atLineEnd] using hhead

/-! ## Directives -/

namespace Cursor

@[simp] theorem skipMany_rest (n : Nat) (c : Cursor) : (skipMany n c).rest = c.rest.drop n := by
  induction n generalizing c with
  | zero => rfl
  | succ n ih =>
    obtain ⟨rest, mark, limit⟩ := c
    rw [skipMany, ih]
    cases rest with
    | nil => simp [skip]
    | cons x rest => rfl

@[simp] theorem skipMany_limit (n : Nat) (c : Cursor) : (skipMany n c).limit = c.limit := by
  induction n generalizing c with
  | zero => rfl
  | succ n ih =>
    rw [skipMany, ih]
    unfold skip
    split <;> rfl

end Cursor

open Cursor

theorem along_skipSpaces (c : Cursor) : c.Along (skipSpaces c) :=
  .span (fun _ => isBreak_of_isSpace) c

theorem along_versionNumber {c c' : Cursor} {n : Nat} (h : readVersionNumber c = some (n, c')) :
    c.Along c' := by
  have hdigits : c.Along (c.span Char.isDigit).2 := .span (fun _ => isBreak_eq_false (by decide)) c
  unfold readVersionNumber at h
  cases hspan : c.span Char.isDigit with
  | mk digits behind =>
    rw [hspan] at h hdigits
    dsimp only at h
    split at h
    · cases h
    · cases h
      exact hdigits

theorem along_handle {c c' : Cursor} {handle : List Char}
    (h : readHandle c = some (handle, c')) : c.Along c' := by
  unfold readHandle at h
  split at h
  · rename_i hx
    have hskip : c.Along c.skip := .skip (beq_iff_eq.mp hx) (by decide)
    have hword : c.Along (c.skip.span isWordChar).2 :=
      hskip.trans (.span (fun _ => isBreak_eq_false (by decide)) _)
    cases hspan : c.skip.span isWordChar with
    | mk word behind =>
      rw [hspan] at h hword
      dsimp only at h
      split at h
      · rename_i hy
        cases h
        exact hword.trans (.skip (beq_iff_eq.mp hy) (by decide))
      · cases h
        exact hword
  · cases h

theorem isBreak_of_digitOf {c : Char} {d : Nat} (h : digitOf? c = some d) : isBreak c = false :=
  isBreak_eq_false (p := fun c => (digitOf? c).isSome) (by decide) (by simp [h])

theorem readOctets_lines {n : Nat} {cs rest : List Char} {octets : List Nat}
    (h : readOctets n cs = some (octets, rest)) :
    nextLines (cs.drop (3 * n)) = nextLines cs := by
  induction n generalizing cs rest octets with
  | zero => rfl
  | succ n ih =>
    unfold readOctets at h
    split at h
    · contradiction
    · rename_i m a b tail hm
      cases hm
      simp only [Option.bind_eq_bind, Option.bind_eq_some_iff] at h
      obtain ⟨octet, hpair, ⟨more, rest'⟩, hmore, -⟩ := h
      simp only [hexPair?, Option.bind_eq_bind, Option.bind_eq_some_iff] at hpair
      obtain ⟨x, hx, y, hy, -⟩ := hpair
      have hdrop : ('%' :: a :: b :: tail).drop (3 * (n + 1)) = tail.drop (3 * n) := rfl
      rw [hdrop, ih hmore, nextLines_cons (by decide), nextLines_cons (isBreak_of_digitOf hx),
        nextLines_cons (isBreak_of_digitOf hy)]
    · cases h

theorem along_escapedChar {c : Cursor} {x : Char} {width : Nat} {rest : List Char}
    (h : readEscapedChar c.rest = some (x, width, rest)) : c.Along (c.skipMany width) := by
  simp only [readEscapedChar, Option.bind_eq_bind, Option.bind_eq_some_iff] at h
  obtain ⟨⟨first, _⟩, -, h⟩ := h
  dsimp only at h
  split at h
  · cases h
  · obtain ⟨⟨octets, behind⟩, hoctets, h⟩ := Option.bind_eq_some_iff.mp h
    dsimp only at h
    split at h
    · cases h
      refine ⟨?_, ?_, skipMany_limit ..⟩
      · rw [skipMany_rest, readOctets_lines hoctets]
      · rw [skipMany_rest]
        exact (List.drop_suffix _ _).length_le
    · cases h

theorem along_uriLoop {verbatim : Bool} {fuel : Nat} {read uri : List Char} {c c' : Cursor}
    (h : readUriLoop verbatim fuel read c = some (uri, c')) : c.Along c' := by
  induction fuel generalizing read c with
  | zero =>
    cases h
    exact .refl _
  | succ fuel ih =>
    unfold readUriLoop at h
    split at h
    · split at h
      · exact (along_escapedChar ‹_›).trans (ih h)
      · cases h
    · rename_i x _ hx
      split at h
      · rename_i huri
        have hbreak : isBreak x = false :=
          isBreak_eq_false (p := isUriChar verbatim) (by cases verbatim <;> decide) huri
        exact (Along.skip hx hbreak).trans (ih h)
      · cases h
        exact .refl _
    · cases h
      exact .refl _

theorem along_versionDirective {c c' : Cursor} {t : Token}
    (h : readVersionDirective c = some (t, c')) :
    c.Along c' ∧ ∃ major minor, t = .versionDirective major minor := by
  simp only [readVersionDirective, Option.bind_eq_bind, Option.bind_eq_some_iff] at h
  obtain ⟨⟨major, behind⟩, hmajor, h⟩ := h
  dsimp only at h
  split at h
  · cases h
  · rename_i hdot
    have hdot : behind.peek? = some '.' := by simpa using hdot
    obtain ⟨⟨minor, behind'⟩, hminor, h⟩ := Option.bind_eq_some_iff.mp h
    cases h
    have hskip : behind.Along behind.skip := .skip hdot (by decide)
    exact ⟨(along_skipSpaces c).trans <| (along_versionNumber hmajor).trans <|
      hskip.trans (along_versionNumber hminor), major, minor, rfl⟩

theorem along_tagDirective {c c' : Cursor} {t : Token}
    (h : readTagDirective c = some (t, c')) :
    c.Along c' ∧ ∃ handle expansion, t = .tagDirective handle expansion := by
  simp only [readTagDirective, Option.bind_eq_bind, Option.bind_eq_some_iff] at h
  obtain ⟨⟨handle, behind⟩, hhandle, h⟩ := h
  dsimp only at h
  split at h
  · cases h
  · split at h
    · cases h
    · obtain ⟨⟨uri, behind'⟩, huri, h⟩ := Option.bind_eq_some_iff.mp h
      dsimp only at h
      split at h
      · cases h
      · cases h
        exact ⟨(along_skipSpaces c).trans <| (along_handle hhandle).trans <|
          (along_skipSpaces behind).trans (along_uriLoop huri), _, _, rfl⟩

/-- Behind a directive its line ends, with at most a comment before that. -/
structure LineRead (c c' : Cursor) : Prop where
  rest : c'.rest = nextLines c.rest
  column : c'.rest = [] ∨ c'.mark.column = 0
  length : c'.rest.length ≤ c.rest.length
  limit : c'.limit = c.limit

theorem lineRead_readBreak {c behind : Cursor} (halong : c.Along behind)
    (hend : atLineEnd behind.rest = true) : LineRead c behind.readBreak.2 := by
  have hrest := (readBreak_rest hend).trans halong.lines
  refine ⟨hrest, ?_, ?_, (readBreak_limit _).trans halong.limit⟩
  · by_cases hnil : behind.rest = []
    · exact .inl (by rw [readBreak_rest hend, hnil, nextLines_nil])
    · exact .inr (readBreak_column hend hnil)
  · rw [hrest]
    exact Nat.le_trans (length_nextLines_le _) (Nat.sub_le _ _)

/-- A directive takes up its line. -/
theorem readDirective_line {c c' : Cursor} {t : Token} (hpercent : c.peek? = some '%')
    (h : readDirective c = some (t, c')) :
    ((∃ major minor, t = .versionDirective major minor) ∨
        ∃ handle expansion, t = .tagDirective handle expansion) ∧ LineRead c c' := by
  have hname : c.Along (c.skip.span isWordChar).2 :=
    (Along.skip hpercent (by decide)).trans (.span (fun _ => isBreak_eq_false (by decide)) _)
  unfold readDirective at h
  cases hspan : c.skip.span isWordChar with
  | mk name behind =>
    rw [hspan] at h hname
    have hline {body : Cursor} (hbody : behind.Along body) :
        c.Along (skipComment (skipSpaces body)) :=
      hname.trans <| hbody.trans <| (along_skipSpaces body).trans (.skipComment _)
    dsimp only at h
    split at h
    · cases h
    · split at h
      · obtain ⟨⟨token, body⟩, hbody, h⟩ := Option.bind_eq_some_iff.mp h
        obtain ⟨halong, htoken⟩ := along_versionDirective hbody
        dsimp only at h
        split at h
        · cases h
          exact ⟨.inl htoken, lineRead_readBreak (hline halong) ‹_›⟩
        · cases h
      · split at h
        · obtain ⟨⟨token, body⟩, hbody, h⟩ := Option.bind_eq_some_iff.mp h
          obtain ⟨halong, htoken⟩ := along_tagDirective hbody
          dsimp only at h
          split at h
          · cases h
            exact ⟨.inr htoken, lineRead_readBreak (hline halong) ‹_›⟩
          · cases h
        · cases h

end CommandSpec.Yaml
