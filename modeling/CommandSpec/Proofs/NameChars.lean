import CommandSpec.Bindings.Config
import CommandSpec.Bindings.Naming
import Mathlib.Data.List.Basic

/-! The characters of generated names. Whatever the command path or the option name, a derived
name consists of characters that an identifier may have, so it ends where punctuation begins.
It need not be an identifier: a name without letters and digits derives to nothing. -/
namespace CommandSpec

/-- Letters and digits, and everything beyond ASCII. -/
def isNameLetter (c : Char) : Bool := c.isAlphanum || 0x80 ≤ c.toNat

/-- Letters, digits and `_`, the `#` of raw identifiers, and everything beyond ASCII. -/
def isNameChar (c : Char) : Bool := c.isAlphanum || c == '_' || c == '#' || 0x80 ≤ c.toNat

theorem isNameChar_of_isNameLetter {c : Char} (h : isNameLetter c = true) :
    isNameChar c = true := by
  simp only [isNameLetter, Bool.or_eq_true] at h
  rcases h with h | h <;> simp [isNameChar, h]

/-- A text without blanks, line ends and punctuation, as every identifier is. -/
def Plain (cs : List Char) : Prop := ∀ c ∈ cs, isNameChar c = true

instance (cs : List Char) : Decidable (Plain cs) :=
  decidable_of_iff (cs.all isNameChar = true) List.all_eq_true

/-- Nothing but letters and digits. -/
def Lettered (cs : List Char) : Prop := ∀ c ∈ cs, isNameLetter c = true

instance (cs : List Char) : Decidable (Lettered cs) :=
  decidable_of_iff (cs.all isNameLetter = true) List.all_eq_true

theorem Lettered.append {a b : List Char} (ha : Lettered a) (hb : Lettered b) : Lettered (a ++ b) :=
  List.forall_mem_append.mpr ⟨ha, hb⟩

theorem Lettered.plain {cs : List Char} (h : Lettered cs) : Plain cs :=
  fun c hc => isNameChar_of_isNameLetter (h c hc)

namespace Plain

variable {a b cs : List Char}

theorem append (ha : Plain a) (hb : Plain b) : Plain (a ++ b) := List.forall_mem_append.mpr ⟨ha, hb⟩

theorem cons {c : Char} (hc : isNameChar c = true) (h : Plain cs) : Plain (c :: cs) :=
  List.forall_mem_cons.mpr ⟨hc, h⟩

theorem reverse (h : Plain cs) : Plain cs.reverse := fun c hc => h c (List.mem_reverse.mp hc)

theorem intercalate {separator : List Char} (hs : Plain separator) (parts : List (List Char))
    (h : ∀ part ∈ parts, Plain part) : Plain (separator.intercalate parts) := by
  induction parts with
  | nil => simp [Plain]
  | cons part rest ih =>
    obtain ⟨hpart, hrest⟩ := List.forall_mem_cons.mp h
    cases rest with
    | nil => simpa using hpart
    | cons next more =>
      rw [List.intercalate_cons_cons]
      exact (hpart.append hs).append (ih hrest)

theorem not_mem {c : Char} (h : Plain cs) (hc : isNameChar c = false) : c ∉ cs := fun hm => by
  rw [h c hm] at hc
  cases hc

end Plain

/-- The configured names are plain, as they are when all of them are identifiers. -/
structure Config.Plain (config : Config) : Prop where
  module : CommandSpec.Plain config.moduleText.toList
  trait : CommandSpec.Plain config.traitText.toList
  struct : CommandSpec.Plain config.structText.toList
  globalOptions : CommandSpec.Plain config.globalOptionsText.toList
  runtime : CommandSpec.Plain config.runtimeText.toList

namespace Text

theorem isNameLetter_of_isAlphanumeric (c : Char) (h : isAlphanumeric c = true) :
    isNameLetter c = true := by
  unfold isAlphanumeric at h
  unfold isNameLetter
  split at h
  · simp [h]
  · rename_i hc
    simp [Nat.not_lt.mp hc]

/-! ## Letter case -/

/-- What moves stays a letter: it stays beyond ASCII, or it is one character that is known to. -/
def Shift.KeepsLetters (s : Shift) : Prop :=
  (0x80 ≤ s.first + s.offset ∧ (s.last + s.offset < 0xd800 ∨
    0xe000 ≤ s.first + s.offset ∧ s.last + s.offset < 0x110000)) ∨
  (s.first = s.last ∧ isNameLetter (Char.ofNat (s.first + s.offset).toNat) = true)

instance (s : Shift) : Decidable s.KeepsLetters :=
  inferInstanceAs (Decidable (_ ∨ _))

theorem isNameLetter_ofNat (n : Nat) (h : 0x80 ≤ n) (hv : n.isValidChar) :
    isNameLetter (Char.ofNat n) = true := by
  have hn : (Char.ofNat n).toNat = n := by
    rw [Char.ofNat, dif_pos hv]
    rfl
  simp [isNameLetter, hn, h]

theorem Shift.KeepsLetters.isNameLetter {s : Shift} (h : s.KeepsLetters) (n : Nat)
    (hn : s.applies n = true) : isNameLetter (Char.ofNat (n + s.offset).toNat) = true := by
  simp only [applies, Bool.and_eq_true, decide_eq_true_eq] at hn
  obtain ⟨⟨hfirst, hlast⟩, -⟩ := hn
  rcases h with ⟨hlow, hvalid⟩ | ⟨heq, hname⟩
  · refine isNameLetter_ofNat _ (by omega) ?_
    unfold Nat.isValidChar
    omega
  · obtain rfl : n = s.first := by omega
    exact hname

theorem lettered_mapCase (expansions : List (Nat × List Char)) (shifts : List Shift) (c : Char)
    (he : ∀ e ∈ expansions, Lettered e.2) (hs : ∀ s ∈ shifts, s.KeepsLetters)
    (hc : isNameLetter c = true) : Lettered (mapCase expansions shifts c) := by
  unfold mapCase
  split
  · rename_i cs hl
    obtain ⟨before, after, rfl, -⟩ := List.lookup_eq_some_iff.mp hl
    exact he (c.toNat, cs) (by simp)
  · split
    · rename_i s hf
      have happlies := List.find?_some hf
      have hkeeps := hs s (List.mem_of_find?_eq_some hf)
      exact List.forall_mem_singleton.mpr (hkeeps.isNameLetter c.toNat happlies)
    · exact List.forall_mem_singleton.mpr hc

/-- A case mapping by rule below U+0080 and by table from there on. -/
theorem lettered_ofCase (ascii : Char → Char) (expansions : List (Nat × List Char))
    (shifts : List Shift)
    (ha : ∀ n < 0x80, (Char.ofNat n).isAlphanum = true → isNameLetter (ascii (Char.ofNat n)) = true)
    (he : ∀ e ∈ expansions, Lettered e.2) (hs : ∀ s ∈ shifts, s.KeepsLetters)
    (c : Char) (h : isAlphanumeric c = true) :
    Lettered (if c.toNat < 0x80 then [ascii c] else mapCase expansions shifts c) := by
  split
  · rename_i hc
    have halphanum : c.isAlphanum = true := by simpa [isAlphanumeric, hc] using h
    have hascii := ha c.toNat hc
    rw [Char.ofNat_toNat] at hascii
    exact List.forall_mem_singleton.mpr (hascii halphanum)
  · exact lettered_mapCase expansions shifts c he hs (isNameLetter_of_isAlphanumeric c h)

theorem lettered_toLower (c : Char) (h : isAlphanumeric c = true) : Lettered (toLower c) :=
  -- the ASCII characters, the expansions and the shifts are finitely many
  lettered_ofCase Char.toLower _ _ (by decide +kernel) (by decide +kernel) (by decide +kernel) c h

theorem lettered_toUpper (c : Char) (h : isAlphanumeric c = true) : Lettered (toUpper c) :=
  lettered_ofCase Char.toUpper _ _ (by decide +kernel) (by decide +kernel) (by decide +kernel) c h

end Text

namespace Naming
open Text

/-! ## Derived names -/

theorem plain_separate (written : List Char) (h : Plain written) : Plain (separate written) := by
  unfold separate
  split
  · exact h
  · exact h
  · exact h.cons rfl

theorem plain_snakeCaseLoop (before : Option Char) (written cs : List Char) (h : Plain written) :
    Plain (snakeCaseLoop before written cs) := by
  induction cs generalizing before written with
  | nil => exact h
  | cons c rest ih =>
    unfold snakeCaseLoop
    split
    · rename_i hc
      refine ih _ _ ((lettered_toLower c hc).plain.reverse.append ?_)
      split
      · exact plain_separate written h
      · exact h
    · exact ih _ _ (plain_separate written h)

theorem plain_snakeCase (ident : String) : Plain (snakeCase ident).toList := by
  have hloop := plain_snakeCaseLoop none [] ident.toList (by simp [Plain])
  have hdropped : Plain ((snakeCaseLoop none [] ident.toList).dropWhile (· == '_')) :=
    fun c hc => hloop c ((List.dropWhile_sublist _).subset hc)
  simpa [snakeCase] using hdropped.reverse

theorem plain_pathSnakeCase (path : List String) : Plain (pathSnakeCase path).toList := by
  unfold pathSnakeCase
  rw [String.toList_intercalate]
  refine Plain.intercalate (by decide) _ (List.forall_mem_map.mpr fun segment hs => ?_)
  obtain ⟨part, -, rfl⟩ := List.mem_map.mp (List.mem_of_mem_filter hs)
  exact plain_snakeCase part

theorem plain_escapeIdentifier (name : String) (h : Plain name.toList) :
    Plain (escapeIdentifier name).toList := by
  unfold escapeIdentifier
  split
  · rw [String.toList_append]
    exact h.append (by decide)
  · split
    · rw [String.toList_append]
      exact Plain.append (by decide) h
    · split
      · rw [String.toList_append]
        exact Plain.append (by decide) h
      · exact h

theorem plain_methodName_none (path : List String) : Plain (methodName path none).toList :=
  plain_escapeIdentifier _ (plain_pathSnakeCase path)

theorem plain_methodName_some (path : List String) (suffix : String) (hs : Plain suffix.toList) :
    Plain (methodName path (some suffix)).toList := by
  unfold methodName
  simp only
  split
  · exact plain_escapeIdentifier suffix hs
  · refine plain_escapeIdentifier _ ?_
    rw [String.toList_append, String.toList_append]
    exact ((plain_pathSnakeCase path).append (by decide)).append hs

theorem plain_fieldName (optionName : String) : Plain (fieldName optionName).toList :=
  plain_escapeIdentifier _ (plain_snakeCase optionName)

theorem isAlphanumeric_of_mem_words (cs : List Char) :
    ∀ word ∈ words cs, ∀ c ∈ word, isAlphanumeric c = true := by
  fun_induction words cs with
  | case1 => simp
  | case2 c rest hc => simp [hc]
  | case3 c rest hc _ word more hwords ih =>
    obtain ⟨hword, hmore⟩ := List.forall_mem_cons.mp (hwords ▸ ih)
    exact List.forall_mem_cons.mpr ⟨List.forall_mem_cons.mpr ⟨hc, hword⟩, hmore⟩
  | case4 c rest hc _ ih => exact List.forall_mem_cons.mpr ⟨by simp [hc], ih⟩
  | case5 c rest _ ih => exact ih

theorem lettered_capitalize (word : List Char) (h : ∀ c ∈ word, isAlphanumeric c = true) :
    Lettered (capitalize word) := by
  cases word with
  | nil => simp [capitalize, Lettered]
  | cons c rest =>
    obtain ⟨hc, hrest⟩ := List.forall_mem_cons.mp h
    exact (lettered_toUpper c hc).append fun d hd => isNameLetter_of_isAlphanumeric d (hrest d hd)

theorem lettered_titleCase (segment : String) : Lettered (titleCase segment).toList := by
  unfold titleCase
  rw [String.toList_ofList]
  intro c hc
  obtain ⟨word, hw, hc⟩ := List.mem_flatMap.mp hc
  exact lettered_capitalize word (isAlphanumeric_of_mem_words _ word hw) c hc

theorem plain_nodeIdentifier (path : List String) : Plain (nodeIdentifier path).toList := by
  have htitles : Plain (path.flatMap fun segment => (titleCase segment).toList) := by
    intro c hc
    obtain ⟨segment, -, hc⟩ := List.mem_flatMap.mp hc
    exact (lettered_titleCase segment).plain c hc
  unfold nodeIdentifier
  rw [String.toList_ofList]
  split
  · exact htitles.cons rfl
  · exact htitles

end Naming
end CommandSpec
