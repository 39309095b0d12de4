import CommandSpec.Bindings.Plan
import CommandSpec.Proofs.NameChars

/-! Derived names as identifiers. What becomes of a name depends on its letters alone: a derived
name is these letters with `_` between some of them (`Joins`), and escaping takes care of words of
the language and of an ASCII digit in front. So it is an identifier just when there is a letter at
all, every letter may stand in an identifier, and the first one may start it or is an ASCII digit
(`Naming.isIdentifier_fieldName_iff`, `Naming.isIdentifier_methodName_iff`). Which characters
beyond ASCII are allowed is left open. -/
namespace CommandSpec

/-! ## Identifiers -/

/-- The characters that may start an identifier and those that may follow. -/
structure IdentifierChars where
  starts : Char → Bool
  continues : Char → Bool
  starts_ascii : ∀ c, c.toNat < 0x80 → starts c = c.isAlpha
  continues_ascii : ∀ c, c.toNat < 0x80 → continues c = (c.isAlphanum || c == '_')
  continues_of_starts : ∀ c, starts c = true → continues c = true

/-- No character beyond ASCII is allowed. -/
def asciiIdentifiers : IdentifierChars where
  starts := Char.isAlpha
  continues c := c.isAlphanum || c == '_'
  starts_ascii _ _ := rfl
  continues_ascii _ _ := rfl
  continues_of_starts c h := by simp [Char.isAlphanum, h]

/-- The words of the language, in use or set aside. -/
def languageWords : List String :=
  ["as", "async", "await", "break", "const", "continue", "crate", "dyn", "else", "enum", "extern",
   "false", "fn", "for", "if", "impl", "in", "let", "loop", "match", "mod", "move", "mut", "pub",
   "ref", "return", "self", "Self", "static", "struct", "super", "trait", "true", "type", "unsafe",
   "use", "where", "while", "abstract", "become", "box", "do", "final", "gen", "macro", "override",
   "priv", "try", "typeof", "unsized", "virtual", "yield"]

/-- Words that are no identifiers even in raw form. -/
def pathWords : List String := ["crate", "self", "super", "Self"]

/-- A character that starts an identifier or `_`, then characters that continue it. A single `_`
is no name. -/
structure IsBody (chars : IdentifierChars) (cs : List Char) : Prop where
  first : ∃ c, cs.head? = some c ∧ (chars.starts c = true ∨ c = '_')
  all : ∀ c ∈ cs, chars.continues c = true
  named : cs ≠ ['_']

/-- A name that is no word of the language, or is written in raw form. -/
def IsIdentifier (chars : IdentifierChars) (name : String) : Prop :=
  (IsBody chars name.toList ∧ name ∉ languageWords) ∨
    ∃ body, name = "r#" ++ body ∧ IsBody chars body.toList ∧ body ∉ pathWords

/-- Every character may stand in an identifier, and the first one may start it unless it is an
ASCII digit. -/
structure Spells (chars : IdentifierChars) (cs : List Char) : Prop where
  all : ∀ c ∈ cs, chars.continues c = true
  first : ∀ c ∈ cs.head?, chars.starts c = true ∨ c.isDigit = true

/-- Such characters, and at least one of them. -/
structure SpellsName (chars : IdentifierChars) (cs : List Char) : Prop extends Spells chars cs where
  ne_nil : cs ≠ []

theorem spells_cons_iff (chars : IdentifierChars) (c : Char) (rest : List Char) :
    Spells chars (c :: rest) ↔ (c :: rest).all chars.continues = true ∧
      (chars.starts c || c.isDigit) = true := by
  rw [List.all_eq_true, Bool.or_eq_true]
  constructor
  · exact fun h => ⟨h.all, h.first c rfl⟩
  · rintro ⟨hall, hfirst⟩
    refine ⟨hall, fun d hd => ?_⟩
    cases hd
    exact hfirst

theorem spells_nil (chars : IdentifierChars) : Spells chars [] := ⟨by simp, by simp⟩

instance (chars : IdentifierChars) : (cs : List Char) → Decidable (Spells chars cs)
  | [] => .isTrue (spells_nil chars)
  | c :: rest => decidable_of_iff' _ (spells_cons_iff chars c rest)

/-- Nothing but letters and digits in ASCII. -/
def AsciiWord (cs : List Char) : Prop := ∀ c ∈ cs, c.toNat < 0x80 ∧ c.isAlphanum = true

instance (cs : List Char) : Decidable (AsciiWord cs) :=
  decidable_of_iff ((cs.all fun c => c.toNat < 0x80 && c.isAlphanum) = true)
    (by simp [AsciiWord])

instance (chars : IdentifierChars) (cs : List Char) : Decidable (SpellsName chars cs) :=
  decidable_of_iff (Spells chars cs ∧ cs ≠ [])
    ⟨fun h => ⟨h.1, h.2⟩, fun h => ⟨h.toSpells, h.ne_nil⟩⟩

theorem AsciiWord.lettered {cs : List Char} (h : AsciiWord cs) : Lettered cs :=
  fun c hc => by simp [isNameLetter, (h c hc).2]

namespace IdentifierChars

variable (chars : IdentifierChars)

theorem continues_underscore : chars.continues '_' = true :=
  (chars.continues_ascii '_' (by decide)).trans rfl

theorem starts_underscore : chars.starts '_' = false :=
  (chars.starts_ascii '_' (by decide)).trans rfl

end IdentifierChars

variable {chars : IdentifierChars}

/-- ASCII letters and digits always spell a name. -/
theorem spells_of_ascii {cs : List Char} (h : AsciiWord cs) :
    Spells chars cs := by
  refine ⟨fun c hc => ?_, fun c hc => ?_⟩
  · obtain ⟨hascii, halphanum⟩ := h c hc
    rw [chars.continues_ascii c hascii, halphanum, Bool.true_or]
  · obtain ⟨hascii, halphanum⟩ := h c (List.mem_of_mem_head? hc)
    rw [chars.starts_ascii c hascii]
    simpa [Char.isAlphanum] using halphanum

/-- ASCII letters behind others make sure that there is a letter, and change nothing else. -/
theorem spellsName_append_iff {cs more : List Char} (hne : more ≠ [])
    (hascii : AsciiWord more) :
    SpellsName chars (cs ++ more) ↔ Spells chars cs := by
  have hmore : Spells chars more := spells_of_ascii hascii
  constructor
  · intro h
    refine ⟨(List.forall_mem_append.mp h.all).1, fun c hc => h.first c ?_⟩
    rw [List.head?_append, hc]
    rfl
  · intro h
    refine ⟨⟨List.forall_mem_append.mpr ⟨h.all, hmore.all⟩, fun c hc => ?_⟩, by simp [hne]⟩
    cases cs with
    | nil => exact hmore.first c hc
    | cons d rest => exact h.first c hc

/-- A name without a digit in front is the body of an identifier. -/
theorem SpellsName.body {cs : List Char} (h : SpellsName chars cs)
    (hdigit : Naming.startsWithDigit cs = false) : IsBody chars cs := by
  cases cs with
  | nil => exact absurd rfl h.ne_nil
  | cons c rest =>
    have hdigit : c.isDigit = false := hdigit
    have hstarts : chars.starts c = true := by simpa [hdigit] using h.first c rfl
    refine ⟨⟨c, rfl, Or.inl hstarts⟩, h.all, fun hplaceholder => ?_⟩
    cases hplaceholder
    rw [chars.starts_underscore] at hstarts
    cases hstarts

theorem IsBody.append {cs more : List Char} (h : IsBody chars cs)
    (hmore : ∀ c ∈ more, chars.continues c = true) : IsBody chars (cs ++ more) := by
  obtain ⟨c, hc, hstarts⟩ := h.first
  obtain ⟨rest, rfl⟩ := List.head?_eq_some_iff.mp hc
  refine ⟨⟨c, rfl, hstarts⟩, List.forall_mem_append.mpr ⟨h.all, hmore⟩, fun hplaceholder => ?_⟩
  obtain ⟨rfl, hrest⟩ := List.cons.inj hplaceholder
  exact h.named (congrArg _ (List.append_eq_nil_iff.mp hrest).1)

/-- What follows a `_` is free to start with a digit. -/
theorem isBody_underscore {cs : List Char} (hne : cs ≠ [])
    (h : ∀ c ∈ cs, chars.continues c = true) : IsBody chars ('_' :: cs) :=
  ⟨⟨'_', rfl, Or.inr rfl⟩, List.forall_mem_cons.mpr ⟨chars.continues_underscore, h⟩, by simpa⟩

/-- The body spells a name unless it starts with a `_`. -/
theorem IsBody.spellsName {cs : List Char} (h : IsBody chars cs) (hfirst : cs.head? ≠ some '_') :
    SpellsName chars cs := by
  obtain ⟨c, hc, hstarts⟩ := h.first
  refine ⟨⟨h.all, fun d hd => ?_⟩, fun hnil => ?_⟩
  · obtain rfl : c = d := Option.some.inj (hc.symm.trans hd)
    rcases hstarts with hstarts | rfl
    · exact Or.inl hstarts
    · exact absurd hc hfirst
  · rw [hnil] at hc
    cases hc

theorem not_isIdentifier_empty : ¬IsIdentifier chars "" := by
  rintro (⟨hbody, -⟩ | ⟨body, hraw, -⟩)
  · obtain ⟨c, hc, -⟩ := hbody.first
    cases hc
  · have hlist := congrArg String.toList hraw
    simp [String.toList_append] at hlist

/-- A name without `#` is in no raw form. -/
theorem isIdentifier_iff_of_hash {name : String} (h : '#' ∉ name.toList) :
    IsIdentifier chars name ↔ IsBody chars name.toList ∧ name ∉ languageWords := by
  constructor
  · rintro (hbody | ⟨body, rfl, -⟩)
    · exact hbody
    · simp [String.toList_append] at h
  · exact Or.inl

/-! ## Letters with `_` between them -/

/-- The text has these letters, with `_` between and behind some of them. -/
structure Joins (written letters : List Char) : Prop where
  letters : written.filter (· != '_') = letters
  first : written.head? ≠ some '_'

namespace Joins

variable {a b letters more : List Char}

theorem nil : Joins [] [] := ⟨rfl, by simp⟩

theorem eq_nil_iff (h : Joins a letters) : a = [] ↔ letters = [] := by
  obtain ⟨rfl, hfirst⟩ := h
  cases a with
  | nil => simp
  | cons c rest =>
    have hc : c ≠ '_' := by simpa using hfirst
    simp [hc]

theorem head? (h : Joins a letters) : a.head? = letters.head? := by
  obtain ⟨rfl, hfirst⟩ := h
  cases a with
  | nil => rfl
  | cons c rest =>
    have hc : c ≠ '_' := by simpa using hfirst
    simp [hc]

/-- Anything may follow the first letter. -/
theorem append (h : Joins a letters) (hne : a ≠ []) (hb : b.filter (· != '_') = more) :
    Joins (a ++ b) (letters ++ more) := by
  refine ⟨by rw [List.filter_append, h.letters, hb], ?_⟩
  rw [List.head?_append_of_ne_nil _ hne]
  exact h.first

theorem of_letters (h : '_' ∉ letters) : Joins letters letters :=
  ⟨List.filter_eq_self.mpr fun c hc => by simpa using fun he : c = '_' => h (he ▸ hc),
    fun hfirst => h (List.mem_of_mem_head? hfirst)⟩

theorem append_letters (h : Joins a letters) (hmore : '_' ∉ more) :
    Joins (a ++ more) (letters ++ more) := by
  by_cases ha : a = []
  · rw [ha, h.eq_nil_iff.mp ha]
    exact of_letters hmore
  · exact h.append ha (of_letters hmore).letters

/-- What stands behind the last letter does not matter. -/
theorem of_append (h : Joins (a ++ b) letters) (hb : ∀ c ∈ b, c = '_') : Joins a letters := by
  have hnone : b.filter (· != '_') = [] := List.filter_eq_nil_iff.mpr fun c hc => by simp [hb c hc]
  refine ⟨by rw [← h.letters, List.filter_append, hnone, List.append_nil], ?_⟩
  cases a with
  | nil => simp
  | cons c rest => exact h.first

/-- The text spells a name as its letters do. -/
theorem spells_iff (h : Joins a letters) : Spells chars a ↔ Spells chars letters := by
  have hall : (∀ c ∈ a, chars.continues c = true) ↔ ∀ c ∈ letters, chars.continues c = true := by
    rw [← h.letters]
    constructor
    · exact fun hall c hc => hall c (List.mem_of_mem_filter hc)
    · intro hall c hc
      by_cases hu : c = '_'
      · rw [hu]
        exact chars.continues_underscore
      · exact hall c (List.mem_filter.mpr ⟨hc, by simpa using hu⟩)
  constructor
  · exact fun hs => ⟨hall.mp hs.all, h.head? ▸ hs.first⟩
  · exact fun hs => ⟨hall.mpr hs.all, h.head?.symm ▸ hs.first⟩

theorem spellsName_iff (h : Joins a letters) : SpellsName chars a ↔ SpellsName chars letters := by
  constructor
  · exact fun hn => ⟨h.spells_iff.mp hn.toSpells, mt h.eq_nil_iff.mpr hn.ne_nil⟩
  · exact fun hn => ⟨h.spells_iff.mpr hn.toSpells, mt h.eq_nil_iff.mp hn.ne_nil⟩

theorem hash_not_mem (h : Joins a letters) (hl : Lettered letters) :
    '#' ∉ a := by
  intro hm
  have hletter := hl '#' (h.letters ▸ List.mem_filter.mpr ⟨hm, rfl⟩)
  cases hletter

end Joins

namespace Naming
open Text

/-! ## Escaping -/

/-- A `_` before an ASCII digit in front. -/
def guardDigit (cs : List Char) : List Char := if startsWithDigit cs then '_' :: cs else cs

theorem mem_of_mem_guardDigit {c : Char} {cs : List Char} (h : c ∈ guardDigit cs)
    (hc : c ≠ '_') : c ∈ cs := by
  unfold guardDigit at h
  split at h
  · exact List.mem_of_ne_of_mem hc h
  · exact h

/-- With the digit guarded, what spells a name is the body of an identifier. -/
theorem isBody_guardDigit_iff {cs : List Char} (hfirst : cs.head? ≠ some '_') :
    IsBody chars (guardDigit cs) ↔ SpellsName chars cs := by
  unfold guardDigit
  split
  · rename_i hdigit
    cases cs with
    | nil => cases hdigit
    | cons c rest =>
      constructor
      · intro hbody
        refine ⟨⟨(List.forall_mem_cons.mp hbody.all).2, fun d hd => ?_⟩, by simp⟩
        cases hd
        exact Or.inr hdigit
      · exact fun hnames => isBody_underscore (by simp) hnames.all
  · rename_i hdigit
    constructor
    · exact fun hbody => hbody.spellsName hfirst
    · exact fun hnames => hnames.body (by simpa using hdigit)

/-- No word of the language starts with a `_`. -/
theorem not_mem_languageWords_of_underscore {name : String} (h : name.toList.head? = some '_') :
    name ∉ languageWords := by
  have hwords : ∀ word ∈ languageWords, word.toList.head? ≠ some '_' := by decide
  exact fun hm => hwords name hm h

/-- A word that is reserved is none with a `_` behind it. -/
theorem reserved_append_not_mem :
    ∀ word ∈ reservedWords, word ++ "_" ∉ languageWords := by decide

/-- The keywords are words that may be raw. -/
theorem keywords_raw :
    ∀ word ∈ keywords, word ∈ languageWords ∧ word ∉ pathWords := by decide

theorem pathWords_subset : pathWords ⊆ languageWords := by decide

/-- Every word that is escaped spells a name. -/
theorem spellsName_of_escaped (chars : IdentifierChars) {word : String}
    (h : word ∈ reservedWords ++ keywords) :
    SpellsName chars word.toList ∧ startsWithDigit word.toList = false := by
  have hwords : ∀ word ∈ reservedWords ++ keywords, word.toList ≠ [] ∧
      startsWithDigit word.toList = false ∧ AsciiWord word.toList := by decide
  obtain ⟨hne, hdigit, hascii⟩ := hwords word h
  exact ⟨⟨spells_of_ascii hascii, hne⟩, hdigit⟩

/-- No word of the language was forgotten. -/
theorem mem_escaped_of_mem_languageWords :
    ∀ word ∈ languageWords, word ∈ reservedWords ++ keywords := by decide

/-- Escaping makes an identifier of everything that spells a name, and of nothing else. -/
theorem isIdentifier_escapeIdentifier_iff (name : String) (letters : List Char)
    (h : Joins name.toList letters) (hletters : Lettered letters) :
    IsIdentifier chars (escapeIdentifier name) ↔ SpellsName chars letters := by
  rw [← h.spellsName_iff]
  have hhash := h.hash_not_mem hletters
  unfold escapeIdentifier
  by_cases hreserved : name ∈ reservedWords
  · obtain ⟨hnames, hdigit⟩ := spellsName_of_escaped chars
      (List.mem_append_left keywords hreserved)
    have hbody : IsBody chars (name ++ "_").toList := by
      rw [String.toList_append]
      exact (hnames.body hdigit).append
        (List.forall_mem_singleton.mpr chars.continues_underscore)
    rw [if_pos (by simpa using hreserved)]
    exact iff_of_true (Or.inl ⟨hbody, reserved_append_not_mem name hreserved⟩) hnames
  rw [if_neg (by simpa using hreserved)]
  by_cases hkeyword : name ∈ keywords
  · obtain ⟨hnames, hdigit⟩ := spellsName_of_escaped chars
      (List.mem_append_right reservedWords hkeyword)
    rw [if_pos (by simpa using hkeyword)]
    have hraw := (keywords_raw name hkeyword).2
    exact iff_of_true (Or.inr ⟨name, rfl, hnames.body hdigit, hraw⟩) hnames
  rw [if_neg (by simpa using hkeyword)]
  have hlist : (if startsWithDigit name.toList then "_" ++ name else name).toList =
      guardDigit name.toList := by
    unfold guardDigit
    split <;> simp [String.toList_append]
  have hlanguage : (if startsWithDigit name.toList then "_" ++ name else name) ∉ languageWords := by
    split
    · exact not_mem_languageWords_of_underscore (by simp [String.toList_append])
    · intro hm
      rcases List.mem_append.mp (mem_escaped_of_mem_languageWords name hm) with hm | hm
      · exact hreserved hm
      · exact hkeyword hm
  rw [isIdentifier_iff_of_hash
      (by rw [hlist]; exact fun hm => hhash (mem_of_mem_guardDigit hm (by decide))),
    hlist, isBody_guardDigit_iff h.first]
  exact and_iff_left hlanguage

/-! ## Snake case -/

/-- The letters and digits of a text in lower case. -/
def snakeLetters (ident : String) : List Char :=
  (ident.toList.filter isAlphanumeric).flatMap toLower

/-- The letters of all segments of a path. -/
def pathLetters (path : List String) : List Char := path.flatMap snakeLetters

theorem underscore_not_mem {cs : List Char} (h : Lettered cs) : '_' ∉ cs :=
  fun hm => by cases h '_' hm

theorem lettered_snakeLetters (ident : String) : Lettered (snakeLetters ident) := by
  intro c hc
  obtain ⟨d, hd, hc⟩ := List.mem_flatMap.mp hc
  exact lettered_toLower d (List.mem_filter.mp hd).2 c hc

theorem lettered_pathLetters (path : List String) : Lettered (pathLetters path) := by
  intro c hc
  obtain ⟨segment, -, hc⟩ := List.mem_flatMap.mp hc
  exact lettered_snakeLetters segment c hc

/-- Ending a word adds no letter. What is written so far stands backwards. -/
theorem joins_separate {written letters : List Char} (h : Joins written.reverse letters) :
    Joins (separate written).reverse letters := by
  unfold separate
  split
  · exact h
  · exact h
  · rename_i hne _
    have hjoins : Joins (written.reverse ++ ['_']) (letters ++ []) :=
      h.append (by simpa using hne) rfl
    rw [List.append_nil] at hjoins
    rwa [List.reverse_cons]

theorem joins_snakeCaseLoop (before : Option Char) (written letters cs : List Char)
    (h : Joins written.reverse letters) :
    Joins (snakeCaseLoop before written cs).reverse
      (letters ++ (cs.filter isAlphanumeric).flatMap toLower) := by
  induction cs generalizing before written letters with
  | nil => simpa [snakeCaseLoop] using h
  | cons c rest ih =>
    unfold snakeCaseLoop
    by_cases hc : isAlphanumeric c = true
    · have hlower : '_' ∉ toLower c := underscore_not_mem (lettered_toLower c hc)
      rw [if_pos hc, List.filter_cons_of_pos hc, List.flatMap_cons, ← List.append_assoc]
      refine ih _ _ _ ?_
      rw [List.reverse_append, List.reverse_reverse]
      refine Joins.append_letters ?_ hlower
      split
      · exact joins_separate h
      · exact h
    · rw [if_neg hc, List.filter_cons_of_neg hc]
      exact ih _ _ _ (joins_separate h)

theorem joins_snakeCase (ident : String) : Joins (snakeCase ident).toList (snakeLetters ident) := by
  have hlist : (snakeCase ident).toList =
      ((snakeCaseLoop none [] ident.toList).dropWhile (· == '_')).reverse := String.toList_ofList
  have hloop := joins_snakeCaseLoop none [] [] ident.toList .nil
  rw [← List.takeWhile_append_dropWhile (p := (· == '_'))
    (l := snakeCaseLoop none [] ident.toList), List.reverse_append] at hloop
  rw [hlist]
  refine hloop.of_append fun c hc => ?_
  simpa using List.all_eq_true.mp List.all_takeWhile c (List.mem_reverse.mp hc)

/-- Segments without letters drop out. -/
theorem joins_pathSnakeCase (path : List String) :
    Joins (pathSnakeCase path).toList (pathLetters path) := by
  unfold pathSnakeCase
  rw [String.toList_intercalate]
  induction path with
  | nil => exact .nil
  | cons segment rest ih =>
    have hsegment := joins_snakeCase segment
    rw [pathLetters, List.flatMap_cons, ← pathLetters]
    by_cases hempty : snakeCase segment = ""
    · rw [hempty] at hsegment
      rw [hsegment.eq_nil_iff.mp rfl, List.map_cons,
        List.filter_cons_of_neg (by simp [hempty])]
      exact ih
    · rw [List.map_cons, List.filter_cons_of_pos (by simpa using hempty), List.map_cons]
      cases hparts : ((rest.map snakeCase).filter (!·.isEmpty)).map String.toList with
      | nil =>
        rw [hparts] at ih
        rw [ih.eq_nil_iff.mp rfl, List.append_nil]
        simpa using hsegment
      | cons part parts =>
        rw [hparts] at ih
        rw [List.intercalate_cons_cons, List.append_assoc]
        refine hsegment.append (by simpa using hempty) ?_
        exact ih.letters

theorem isIdentifier_fieldName_iff (optionName : String) :
    IsIdentifier chars (fieldName optionName) ↔ SpellsName chars (snakeLetters optionName) :=
  isIdentifier_escapeIdentifier_iff _ _ (joins_snakeCase optionName)
    (lettered_snakeLetters optionName)

theorem isIdentifier_action_iff (path : List String) :
    IsIdentifier chars (methodName path none) ↔ SpellsName chars (pathLetters path) :=
  isIdentifier_escapeIdentifier_iff _ _ (joins_pathSnakeCase path) (lettered_pathLetters path)

/-- A suffix of ASCII letters needs no letters before it. -/
theorem isIdentifier_hook_iff (path : List String) (suffix : String) (letters : List Char)
    (hsuffix : Joins suffix.toList letters) (hne : letters ≠ [])
    (hascii : AsciiWord letters) :
    IsIdentifier chars (methodName path (some suffix)) ↔ Spells chars (pathLetters path) := by
  have hletters : Lettered (pathLetters path ++ letters) :=
    (lettered_pathLetters path).append hascii.lettered
  have hjoins := joins_pathSnakeCase path
  have hmethod : IsIdentifier chars (methodName path (some suffix)) ↔
      SpellsName chars (pathLetters path ++ letters) := by
    unfold methodName
    by_cases hempty : pathSnakeCase path = ""
    · rw [hempty] at hjoins
      rw [hjoins.eq_nil_iff.mp rfl] at hletters ⊢
      rw [hempty]
      exact isIdentifier_escapeIdentifier_iff suffix _ hsuffix hletters
    · simp only
      rw [if_neg (by simpa using hempty)]
      refine isIdentifier_escapeIdentifier_iff _ _ ?_ hletters
      rw [String.toList_append, String.toList_append, List.append_assoc]
      exact hjoins.append (by simpa using hempty) hsuffix.letters
  rw [hmethod, spellsName_append_iff hne hascii]

/-! ## Type names -/

/-- The letters and digits of a path with each word in title case. -/
def titleLetters (path : List String) : List Char := path.flatMap fun s => (titleCase s).toList

theorem lettered_titleLetters (path : List String) : Lettered (titleLetters path) := by
  intro c hc
  obtain ⟨segment, -, hc⟩ := List.mem_flatMap.mp hc
  exact lettered_titleCase segment c hc

/-- No word of the language ends as a record's type name does. -/
theorem recordTypeName_not_mem_languageWords (identifier : String) :
    recordTypeName identifier ∉ languageWords := by
  have hwords : ∀ word ∈ languageWords, "Options".toList.isSuffixOf word.toList = false := by decide
  intro hm
  have hsuffix := hwords _ hm
  rw [recordTypeName, String.toList_append,
    List.isSuffixOf_iff_suffix.mpr (List.suffix_append ..)] at hsuffix
  cases hsuffix

theorem isIdentifier_recordTypeName_iff (path : List String) :
    IsIdentifier chars (recordTypeName (nodeIdentifier path)) ↔
      Spells chars (titleLetters path) := by
  have hoptions : AsciiWord "Options".toList := by decide
  have hletters : Lettered (titleLetters path ++ "Options".toList) :=
    (lettered_titleLetters path).append hoptions.lettered
  have hlist : (recordTypeName (nodeIdentifier path)).toList =
      guardDigit (titleLetters path ++ "Options".toList) := by
    have hidentifier : (nodeIdentifier path).toList = guardDigit (titleLetters path) :=
      String.toList_ofList
    rw [recordTypeName, String.toList_append, hidentifier]
    -- an empty path has no digit in front, and neither has the ending
    unfold guardDigit
    cases titleLetters path with
    | nil => rfl
    | cons c rest =>
      have hdigit : startsWithDigit (c :: rest ++ "Options".toList) =
          startsWithDigit (c :: rest) := rfl
      rw [hdigit]
      split <;> rfl
  have hhash : '#' ∉ (recordTypeName (nodeIdentifier path)).toList := by
    rw [hlist]
    intro hm
    cases hletters '#' (mem_of_mem_guardDigit hm (by decide))
  have hfirst : (titleLetters path ++ "Options".toList).head? ≠ some '_' := fun h =>
    underscore_not_mem hletters (List.mem_of_mem_head? h)
  rw [isIdentifier_iff_of_hash hhash, hlist, isBody_guardDigit_iff hfirst,
    spellsName_append_iff (by decide) hoptions]
  exact and_iff_left (recordTypeName_not_mem_languageWords _)

/-- The type name of a configured record is an identifier if the configured name is one. -/
theorem isIdentifier_recordTypeName {identifier : String} (h : IsIdentifier chars identifier) :
    IsIdentifier chars (recordTypeName identifier) := by
  have hcontinues : ∀ c ∈ "Options".toList, chars.continues c = true :=
    (spells_of_ascii (by decide)).all
  rcases h with ⟨hbody, -⟩ | ⟨body, rfl, hbody, -⟩
  · refine Or.inl ⟨?_, recordTypeName_not_mem_languageWords identifier⟩
    rw [recordTypeName, String.toList_append]
    exact hbody.append hcontinues
  · refine Or.inr ⟨recordTypeName body, String.append_assoc .., ?_, fun hm => ?_⟩
    · rw [recordTypeName, String.toList_append]
      exact hbody.append hcontinues
    · exact recordTypeName_not_mem_languageWords body (pathWords_subset hm)

end Naming
end CommandSpec
