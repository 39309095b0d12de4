import CommandSpec.Proofs.SnakeNames

/-! Names derived from ASCII texts. One letter or digit is enough: fields, methods and hooks then
get identifiers in lower case, raw just where they would be words of the language, and types get
names that start with a capital or a `_` (`Naming.ascii_names_legal`). -/
namespace CommandSpec

/-- A lower-case letter or a digit. -/
def isSnakeLetter (c : Char) : Bool := c.isLower || c.isDigit

theorem isAlphanum_iff {c : Char} :
    c.isAlphanum = true ↔ c.isUpper = true ∨ c.isLower = true ∨ c.isDigit = true := by
  have heq : c.isAlphanum = (c.isUpper || c.isLower || c.isDigit) := rfl
  rw [heq, Bool.or_eq_true, Bool.or_eq_true, or_assoc]

theorem ascii_of_isSnakeLetter {c : Char} (h : isSnakeLetter c = true) :
    c.toNat < 0x80 ∧ c.isAlphanum = true := by
  have h : c.isLower = true ∨ c.isDigit = true := by simpa [isSnakeLetter] using h
  refine ⟨?_, isAlphanum_iff.mpr (Or.inr h)⟩
  rcases h with h | h
  · have hz : c.val ≤ 'z'.val := of_decide_eq_true (Bool.and_eq_true_iff.mp h).2
    have hle : c.toNat ≤ 'z'.toNat := UInt32.le_iff_toNat_le.mp hz
    exact Nat.lt_of_le_of_lt hle (by decide)
  · exact Nat.lt_of_le_of_lt (Char.isDigit_iff_toNat.mp h).2 (by decide)

/-- Lower-case letters, digits and `_`. -/
def IsLowerText (cs : List Char) : Prop := ∀ c ∈ cs, isSnakeLetter c = true ∨ c = '_'

/-- A lower-case letter or `_`, and then these and digits. -/
structure IsLowerBody (cs : List Char) : Prop where
  first : ∃ c, cs.head? = some c ∧ (c.isLower = true ∨ c = '_')
  all : IsLowerText cs

/-- An identifier in lower case. It is raw just if what follows is a word of the language that may
be raw, and none of the words that may not. -/
structure IsMemberName (chars : IdentifierChars) (name : String) : Prop where
  legal : IsIdentifier chars name
  spelled : ∃ raw body, name = (if raw = true then "r#" else "") ++ body ∧ IsLowerBody body.toList ∧
    (raw = true ↔ body ∈ languageWords ∧ body ∉ pathWords)
  word : name ∉ pathWords

/-- A capital or `_`, and then letters and digits. -/
def IsTypeName (name : String) : Prop :=
  ∃ first rest, name.toList = first :: rest ∧ (first.isUpper = true ∨ first = '_') ∧
    ∀ c ∈ rest, c.isAlphanum = true

/-- Letters and digits, the first of which is no lower-case letter. -/
structure Titled (cs : List Char) : Prop where
  first : ∀ c ∈ cs.head?, c.isUpper = true ∨ c.isDigit = true
  all : ∀ c ∈ cs, c.isAlphanum = true

theorem Titled.flatMap {α : Type} {as : List α} {f : α → List Char} (h : ∀ a ∈ as, Titled (f a)) :
    Titled (as.flatMap f) := by
  induction as with
  | nil => exact ⟨nofun, nofun⟩
  | cons a as ih =>
    obtain ⟨ha, has⟩ := List.forall_mem_cons.mp h
    rw [List.flatMap_cons]
    refine ⟨fun c hc => ?_, List.forall_mem_append.mpr ⟨ha.all, (ih has).all⟩⟩
    cases hfirst : f a with
    | nil =>
      rw [hfirst] at hc
      exact (ih has).first c hc
    | cons d rest =>
      rw [hfirst] at hc
      exact ha.first c (hfirst ▸ hc)

def IsAscii (text : String) : Prop := ∀ c ∈ text.toList, c.toNat < 0x80

def HasLetter (text : String) : Prop := ∃ c ∈ text.toList, c.isAlphanum = true

instance (text : String) : Decidable (IsAscii text) :=
  List.decidableBAll (fun c : Char => c.toNat < 0x80) text.toList

instance (text : String) : Decidable (HasLetter text) :=
  List.decidableBEx (fun c : Char => c.isAlphanum = true) text.toList

variable {chars : IdentifierChars}

namespace Naming
open Text

/-! ## Members -/

theorem isSnakeLetter_snakeLetters {ident : String} (h : IsAscii ident) :
    ∀ c ∈ snakeLetters ident, isSnakeLetter c = true := by
  have hlower : ∀ n < 0x80, (Char.ofNat n).isAlphanum = true →
      isSnakeLetter (Char.ofNat n).toLower = true := by decide
  intro c hc
  obtain ⟨d, hd, hc⟩ := List.mem_flatMap.mp hc
  obtain ⟨hm, halphanum⟩ := List.mem_filter.mp hd
  have hascii := h d hm
  have hd := hlower d.toNat hascii
  rw [Char.ofNat_toNat] at hd
  rw [toLower, if_pos hascii, List.mem_singleton] at hc
  rw [hc]
  exact hd (by simpa [isAlphanumeric, hascii] using halphanum)

theorem snakeLetters_ne_nil_iff {ident : String} (h : IsAscii ident) :
    snakeLetters ident ≠ [] ↔ HasLetter ident := by
  rw [snakeLetters, Ne, List.flatMap_eq_nil_iff]
  simp only [List.mem_filter, not_forall, exists_prop]
  refine exists_congr fun c => ?_
  constructor
  · rintro ⟨⟨hm, halphanum⟩, -⟩
    exact ⟨hm, by simpa [isAlphanumeric, h c hm] using halphanum⟩
  · rintro ⟨hm, halphanum⟩
    exact ⟨⟨hm, by simpa [isAlphanumeric, h c hm] using halphanum⟩, by simp [toLower, h c hm]⟩

/-! ### Escaping -/

/-- Without a digit in front, a name in lower case is a body as it is. -/
theorem isLowerBody_of_all {cs : List Char} (hne : cs ≠ []) (hdigit : startsWithDigit cs = false)
    (hall : IsLowerText cs) : IsLowerBody cs := by
  obtain ⟨c, rest, rfl⟩ := List.exists_cons_of_ne_nil hne
  have hc : c.isDigit = false := hdigit
  have hfirst : c.isLower = true ∨ c = '_' := by
    simpa [isSnakeLetter, hc] using hall c (List.mem_cons_self ..)
  exact ⟨⟨c, rfl, hfirst⟩, hall⟩

/-- A name that is no word of the language is not raw. -/
theorem isMemberName_of_not_mem {name : String} (hlegal : IsIdentifier chars name)
    (hbody : IsLowerBody name.toList) (h : name ∉ languageWords) : IsMemberName chars name := by
  refine ⟨hlegal, ⟨false, name, by simp, hbody, ?_⟩, fun hm => h (pathWords_subset hm)⟩
  exact ⟨nofun, fun hword => absurd hword.1 h⟩

theorem Escaped.isMemberName {name escaped : String} (he : Escaped name escaped)
    (hlegal : IsIdentifier chars escaped) (hne : name.toList ≠ [])
    (hall : IsLowerText name.toList) : IsMemberName chars escaped := by
  cases he with
  | reserved h =>
    have hdigit := (spellsName_of_escaped chars (List.mem_append_left keywords h)).2
    obtain ⟨c, hc, hfirst⟩ := (isLowerBody_of_all hne hdigit hall).first
    refine isMemberName_of_not_mem hlegal ?_ (reserved_append_not_mem name h)
    rw [String.toList_append]
    refine ⟨⟨c, ?_, hfirst⟩, List.forall_mem_append.mpr ⟨hall, by simp⟩⟩
    rw [List.head?_append, hc]
    rfl
  | keyword h =>
    have hhash : ∀ word ∈ pathWords, '#' ∉ word.toList := by decide
    have hdigit := (spellsName_of_escaped chars (List.mem_append_right reservedWords h)).2
    refine ⟨hlegal, ⟨true, name, rfl, isLowerBody_of_all hne hdigit hall, ?_⟩, fun hm => ?_⟩
    · exact iff_of_true rfl (keywords_raw name h)
    · exact hhash _ hm (by simp [String.toList_append])
  | digit =>
    have hlist : ("_" ++ name).toList = '_' :: name.toList := by simp [String.toList_append]
    refine isMemberName_of_not_mem hlegal ?_ (not_mem_languageWords_of_underscore (by simp [hlist]))
    rw [hlist]
    exact ⟨⟨'_', rfl, Or.inr rfl⟩, List.forall_mem_cons.mpr ⟨Or.inr rfl, hall⟩⟩
  | plain hword hdigit =>
    exact isMemberName_of_not_mem hlegal (isLowerBody_of_all hne hdigit hall) hword

/-- Escaping makes a member's name of every name in snake case and ASCII. -/
theorem isMemberName_escapeIdentifier {name : String} (hsnaked : Snaked name.toList)
    (hne : name ≠ "") (hall : IsLowerText name.toList) :
    IsMemberName chars (escapeIdentifier name) := by
  have hne : name.toList ≠ [] := by simpa using hne
  have hjoins : Joins name.toList (name.toList.filter (· != '_')) := ⟨rfl, hsnaked.first⟩
  have hascii : AsciiWord (name.toList.filter (· != '_')) := by
    intro c hc
    obtain ⟨hm, hc⟩ := List.mem_filter.mp hc
    exact ascii_of_isSnakeLetter ((hall c hm).resolve_right (by simpa using hc))
  have hspells : SpellsName chars (name.toList.filter (· != '_')) :=
    ⟨spells_of_ascii hascii, mt hjoins.eq_nil_iff.mpr hne⟩
  have hlegal : IsIdentifier chars (escapeIdentifier name) :=
    (isIdentifier_escapeIdentifier_iff name _ hjoins hascii.lettered).mpr hspells
  exact (escaped_escapeIdentifier name).isMemberName hlegal hne hall

/-! ### Paths -/

theorem lower_joinNames {a b : String} (ha : IsLowerText a.toList) (hb : IsLowerText b.toList) :
    IsLowerText (joinNames a b).toList := by
  unfold joinNames
  split
  · exact hb
  · split
    · exact ha
    · rw [String.toList_append, String.toList_append]
      exact List.forall_mem_append.mpr
        ⟨List.forall_mem_append.mpr ⟨ha, List.forall_mem_singleton.mpr (Or.inr rfl)⟩, hb⟩

theorem lower_snakeCase {ident : String} (h : IsAscii ident) :
    IsLowerText (snakeCase ident).toList := by
  intro c hc
  by_cases hu : c = '_'
  · exact Or.inr hu
  · have hletter : c ∈ (snakeCase ident).toList.filter (· != '_') :=
      List.mem_filter.mpr ⟨hc, by simpa using hu⟩
    rw [(joins_snakeCase ident).letters] at hletter
    exact Or.inl (isSnakeLetter_snakeLetters h c hletter)

theorem lower_pathSnakeCase {path : List String} (h : ∀ segment ∈ path, IsAscii segment) :
    IsLowerText (pathSnakeCase path).toList := by
  induction path with
  | nil => exact fun c hc => nomatch hc
  | cons segment rest ih =>
    obtain ⟨hsegment, hrest⟩ := List.forall_mem_cons.mp h
    rw [pathSnakeCase_cons]
    exact lower_joinNames (lower_snakeCase hsegment) (ih hrest)

theorem pathSnakeCase_ne_empty {path : List String} (hascii : ∀ segment ∈ path, IsAscii segment)
    (hletter : ∃ segment ∈ path, HasLetter segment) : pathSnakeCase path ≠ "" := by
  obtain ⟨segment, hm, hletter⟩ := hletter
  intro hempty
  have hnil : pathLetters path = [] := (joins_pathSnakeCase path).eq_nil_iff.mp (by simp [hempty])
  rw [pathLetters, List.flatMap_eq_nil_iff] at hnil
  exact (snakeLetters_ne_nil_iff (hascii segment hm)).mpr hletter (hnil segment hm)

theorem isMemberName_methodName {path : List String} (hascii : ∀ segment ∈ path, IsAscii segment)
    (hletter : ∃ segment ∈ path, HasLetter segment) {suffix : Option String}
    (hs : suffix ∈ hookSuffixes) : IsMemberName chars (methodName path suffix) := by
  have hsuffix : ∀ suffix ∈ hookSuffixes,
      (suffix.getD "").toList.all (fun c => isSnakeLetter c || c == '_') = true := by
    decide
  rw [methodName_eq path suffix hs]
  refine isMemberName_escapeIdentifier (snaked_plainName path suffix hs).1 ?_ ?_
  · have hpath := pathSnakeCase_ne_empty hascii hletter
    unfold plainName joinNames
    rw [if_neg hpath]
    split
    · exact hpath
    · simp
  · refine lower_joinNames (lower_pathSnakeCase hascii) fun c hc => ?_
    simpa using List.all_eq_true.mp (hsuffix suffix hs) c hc

/-- An option is named as a command of that name on the top level would be. -/
theorem fieldName_eq_methodName (optionName : String) :
    fieldName optionName = methodName [optionName] none := by
  have hpath : pathSnakeCase [optionName] = snakeCase optionName := by
    rw [pathSnakeCase_cons, joinNames]
    split
    · rename_i hempty
      exact hempty.symm
    · exact if_pos rfl
  rw [fieldName, methodName, hpath]

/-! ## Types -/

/-- The runs of letters and digits hold all of these, and none is empty. -/
theorem flatten_words (cs : List Char) :
    (words cs).flatten = cs.filter isAlphanumeric ∧ ∀ word ∈ words cs, word ≠ [] := by
  fun_induction words cs with
  | case1 => simp
  | case2 c rest hc _ hwords ih => simpa [hc, hwords] using ih.1
  | case3 c rest hc _ word more hwords ih =>
    rw [hwords] at ih
    simpa [hc, ← ih.1] using (List.forall_mem_cons.mp ih.2).2
  | case4 c rest hc _ ih => simpa [hc] using ih
  | case5 c rest hc ih => simpa [hc] using ih

theorem titled_capitalize {word : List Char} (hne : word ≠ [])
    (hascii : ∀ c ∈ word, c.toNat < 0x80 ∧ c.isAlphanum = true) :
    Titled (capitalize word) ∧ capitalize word ≠ [] := by
  have hupper : ∀ n < 0x80, (Char.ofNat n).isAlphanum = true →
      ((Char.ofNat n).toUpper.isUpper || (Char.ofNat n).toUpper.isDigit) = true := by
    decide
  obtain ⟨c, rest, rfl⟩ := List.exists_cons_of_ne_nil hne
  obtain ⟨hc, hrest⟩ := List.forall_mem_cons.mp hascii
  have hfirst := hupper c.toNat hc.1
  rw [Char.ofNat_toNat] at hfirst
  have hfirst : c.toUpper.isUpper = true ∨ c.toUpper.isDigit = true := by simpa using hfirst hc.2
  have hlist : capitalize (c :: rest) = c.toUpper :: rest := by
    simp [capitalize, toUpper, hc.1]
  rw [hlist]
  have halphanum : c.toUpper.isAlphanum = true :=
    isAlphanum_iff.mpr (hfirst.imp_right Or.inr)
  refine ⟨⟨fun d hd => ?_, List.forall_mem_cons.mpr ⟨halphanum, fun d hd => (hrest d hd).2⟩⟩,
    by simp⟩
  cases hd
  exact hfirst

theorem titled_titleCase {segment : String} (hascii : IsAscii segment) :
    Titled (titleCase segment).toList ∧ (HasLetter segment → (titleCase segment).toList ≠ []) := by
  obtain ⟨hflatten, hne⟩ := flatten_words segment.toList
  have hwords : ∀ word ∈ words segment.toList,
      Titled (capitalize word) ∧ capitalize word ≠ [] := by
    intro word hw
    refine titled_capitalize (hne word hw) fun c hc => ?_
    have hm : c ∈ segment.toList.filter isAlphanumeric :=
      hflatten ▸ List.mem_flatten.mpr ⟨word, hw, hc⟩
    obtain ⟨hm, halphanum⟩ := List.mem_filter.mp hm
    exact ⟨hascii c hm, by simpa [isAlphanumeric, hascii c hm] using halphanum⟩
  rw [titleCase, String.toList_ofList]
  refine ⟨.flatMap fun word hw => (hwords word hw).1, ?_⟩
  rintro ⟨c, hm, halphanum⟩ hnil
  have hc : c ∈ segment.toList.filter isAlphanumeric :=
    List.mem_filter.mpr ⟨hm, by simpa [isAlphanumeric, hascii c hm] using halphanum⟩
  obtain ⟨word, hw, -⟩ := List.mem_flatten.mp (hflatten ▸ hc)
  exact (hwords word hw).2 (List.flatMap_eq_nil_iff.mp hnil word hw)

theorem isTypeName_nodeIdentifier {path : List String} (hascii : ∀ segment ∈ path, IsAscii segment)
    (hletter : ∃ segment ∈ path, HasLetter segment) : IsTypeName (nodeIdentifier path) := by
  have htitled : Titled (titleLetters path) :=
    .flatMap fun segment hs => (titled_titleCase (hascii segment hs)).1
  have hne : titleLetters path ≠ [] := by
    obtain ⟨segment, hs, hletter⟩ := hletter
    intro hnil
    exact (titled_titleCase (hascii segment hs)).2 hletter
      (List.flatMap_eq_nil_iff.mp hnil segment hs)
  have hlist : (nodeIdentifier path).toList = guardDigit (titleLetters path) :=
    String.toList_ofList
  unfold IsTypeName
  rw [hlist]
  obtain ⟨c, rest, hcons⟩ := List.exists_cons_of_ne_nil hne
  rw [hcons] at htitled ⊢
  unfold guardDigit
  split
  · exact ⟨'_', c :: rest, rfl, Or.inr rfl, htitled.all⟩
  · rename_i hdigit
    have hupper : c.isUpper = true := (htitled.first c rfl).resolve_right hdigit
    exact ⟨c, rest, rfl, Or.inl hupper, (List.forall_mem_cons.mp htitled.all).2⟩

/-- **One letter or digit in ASCII is enough for a name.** Such an option gets the name of a member,
and so do the command and the hooks of a path with such a segment, however many of its other
segments come to nothing; the type of the command gets the name of a type. -/
theorem ascii_names_legal (chars : IdentifierChars) :
    (∀ optionName, IsAscii optionName → HasLetter optionName →
      IsMemberName chars (fieldName optionName)) ∧
    ∀ path, (∀ segment ∈ path, IsAscii segment) → (∃ segment ∈ path, HasLetter segment) →
      (∀ suffix ∈ hookSuffixes, IsMemberName chars (methodName path suffix)) ∧
        IsTypeName (nodeIdentifier path) := by
  refine ⟨fun optionName hascii hletter => ?_, fun path hascii hletter => ⟨?_, ?_⟩⟩
  · rw [fieldName_eq_methodName]
    exact isMemberName_methodName (List.forall_mem_singleton.mpr hascii)
      ⟨optionName, List.mem_singleton_self _, hletter⟩ (by decide)
  · exact fun suffix hs => isMemberName_methodName hascii hletter hs
  · exact isTypeName_nodeIdentifier hascii hletter

/-- Words of the language, a digit in front and segments without letters. -/
theorem awkwardNames_legal :
    IsMemberName asciiIdentifiers (fieldName "Self") ∧
      IsMemberName asciiIdentifiers (methodName ["--", "move"] none) ∧
      IsMemberName asciiIdentifiers (methodName ["--", "2fa"] (some "hook_after")) ∧
      IsTypeName (nodeIdentifier ["--", "2fa"]) ∧
      fieldName "Self" = "self_" ∧ methodName ["--", "move"] none = "r#move" ∧
      methodName ["--", "2fa"] (some "hook_after") = "_2fa_hook_after" ∧
      nodeIdentifier ["--", "2fa"] = "_2fa" := by
  obtain ⟨hfields, hpaths⟩ := ascii_names_legal asciiIdentifiers
  obtain ⟨hmove, -⟩ := hpaths ["--", "move"] (by decide) (by decide)
  obtain ⟨hdigit, htype⟩ := hpaths ["--", "2fa"] (by decide) (by decide)
  exact ⟨hfields "Self" (by decide) (by decide), hmove none (by decide),
    hdigit (some "hook_after") (by decide), htype, by decide +kernel, by decide +kernel,
    by decide +kernel, by decide +kernel⟩

end Naming
end CommandSpec
