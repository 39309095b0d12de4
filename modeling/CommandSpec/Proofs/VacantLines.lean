import CommandSpec.Yaml.Cursor

/-! The lines of a document text that hold nothing of a document: blank ones, comments,
directives and document markers. A text of such lines has no content. Any text is its first line
and the text behind that (`yamlLines_eq`), which is how a reader goes through it. -/
namespace CommandSpec.Yaml

/-! ## Lines -/

def lineBreaks : List Char :=
  ['\n', '\r', Char.ofNat 0x85, Char.ofNat 0x2028, Char.ofNat 0x2029]

theorem mem_lineBreaks {c : Char} (h : isBreak c = true) : c ∈ lineBreaks := by
  have hof (n : Nat) (hn : c.toNat = n) : c = Char.ofNat n := by rw [← hn, Char.ofNat_toNat]
  simp only [isBreak, Bool.or_eq_true, beq_iff_eq] at h
  rcases h with (((h | h) | h) | h) | h
  · simp [lineBreaks, h]
  · simp [lineBreaks, h]
  · simp [lineBreaks, hof _ h]
  · simp [lineBreaks, hof _ h]
  · simp [lineBreaks, hof _ h]

/-- Characters of a kind that has no line breaks. -/
theorem isBreak_eq_false {p : Char → Bool} (hp : lineBreaks.any p = false) {c : Char}
    (hc : p c = true) : isBreak c = false := by
  cases h : isBreak c with
  | false => rfl
  | true => exact absurd hc (List.any_eq_false.mp hp c (mem_lineBreaks h))

/-- The lines of a text; a carriage return and a line feed behind it are one line break. -/
def yamlLines : List Char → List (List Char)
  | [] => []
  | '\r' :: '\n' :: rest => [] :: yamlLines rest
  | c :: rest =>
    if isBreak c then [] :: yamlLines rest
    else
      match yamlLines rest with
      | [] => [[c]]
      | line :: more => (c :: line) :: more

/-- Without the line break that a text starts with. -/
def dropBreak : List Char → List Char
  | '\r' :: '\n' :: rest => rest
  | _ :: rest => rest
  | [] => []

/-- The text up to its first line break. -/
def lineOf (cs : List Char) : List Char := cs.takeWhile (!isBreak ·)

/-- The text behind its first line break. -/
def nextLines (cs : List Char) : List Char := dropBreak (cs.dropWhile (!isBreak ·))

@[simp] theorem nextLines_nil : nextLines [] = [] := rfl

theorem lineOf_cons {c : Char} (h : isBreak c = false) (rest : List Char) :
    lineOf (c :: rest) = c :: lineOf rest := by
  simp [lineOf, h]

theorem nextLines_cons {c : Char} (h : isBreak c = false) (rest : List Char) :
    nextLines (c :: rest) = nextLines rest := by
  simp [nextLines, h]

theorem nextLines_of_atLineEnd {cs : List Char} (h : atLineEnd cs = true) :
    nextLines cs = dropBreak cs := by
  cases cs with
  | nil => rfl
  | cons c rest =>
    have hc : isBreak c = true := h
    simp [nextLines, hc]

/-- Nothing before the first line break matters to the lines behind it. -/
theorem nextLines_dropWhile {p : Char → Bool} (hp : ∀ c, p c = true → isBreak c = false)
    (cs : List Char) : nextLines (cs.dropWhile p) = nextLines cs := by
  induction cs with
  | nil => rfl
  | cons c rest ih =>
    by_cases hc : p c = true
    · rw [List.dropWhile_cons_of_pos hc, ih, nextLines_cons (hp c hc)]
    · rw [List.dropWhile_cons_of_neg hc]

theorem lineOf_of_break {c : Char} (h : isBreak c = true) (rest : List Char) :
    lineOf (c :: rest) = [] := by
  simp [lineOf, h]

theorem length_dropBreak_le (cs : List Char) : (dropBreak cs).length ≤ cs.length - 1 := by
  unfold dropBreak
  split <;> simp

theorem length_nextLines_le (cs : List Char) : (nextLines cs).length ≤ cs.length - 1 := by
  have hdrop : (cs.dropWhile (!isBreak ·)).length ≤ cs.length :=
    (List.dropWhile_suffix _).length_le
  have hbreak := length_dropBreak_le (cs.dropWhile (!isBreak ·))
  unfold nextLines
  omega

theorem yamlLines_eq (cs : List Char) (h : cs ≠ []) :
    yamlLines cs = lineOf cs :: yamlLines (nextLines cs) := by
  induction cs using yamlLines.induct with
  | case1 => exact absurd rfl h
  | case2 rest ih => rfl
  | case3 c rest hpair hc ih =>
    have hend : atLineEnd (c :: rest) = true := hc
    have hnext : nextLines (c :: rest) = rest :=
      (nextLines_of_atLineEnd hend).trans (dropBreak.eq_2 c rest hpair)
    rw [yamlLines.eq_3 c rest hpair, if_pos hc, lineOf_of_break hc, hnext]
  | case4 c rest hpair hc hlines ih =>
    have hc : isBreak c = false := by simpa using hc
    rw [yamlLines.eq_3 c rest hpair, hc, lineOf_cons hc, nextLines_cons hc]
    cases rest with
    | nil => rfl
    | cons d rest => rw [ih (by simp)] at hlines; cases hlines
  | case5 c rest hpair hc line more hlines ih =>
    have hc : isBreak c = false := by simpa using hc
    rw [yamlLines.eq_3 c rest hpair, hc, lineOf_cons hc, nextLines_cons hc]
    cases rest with
    | nil => cases hlines
    | cons d rest =>
      rw [ih (by simp)]
      rfl

/-! ## Vacant lines -/

/-- Whether a line holds blanks, with at most a comment behind them. -/
def isIdle (line : List Char) : Bool :=
  match line.dropWhile isSpace with
  | [] => true
  | c :: _ => c == '#'

/-- Whether a line starts with a document marker, with at most a comment behind it. -/
def isMarkerLine : List Char → Bool
  | '-' :: '-' :: '-' :: rest => atGap rest && isIdle rest
  | '.' :: '.' :: '.' :: rest => atGap rest && isIdle rest
  | _ => false

def isDirectiveLine (line : List Char) : Bool := line.head? == some '%'

def isVacantLine (line : List Char) : Bool :=
  isIdle line || isMarkerLine line || isDirectiveLine line

/-- Whether all lines of a text are vacant. -/
def isVacant (cs : List Char) : Bool := (yamlLines cs).all isVacantLine

/-- Whether a text has nothing of a document in it; a byte order mark in front is set aside. -/
def hasNoContent (cs : List Char) : Bool :=
  isVacant (if cs.head? == some byteOrderMark then cs.tail else cs)

theorem isVacant_iff {cs : List Char} (h : cs ≠ []) :
    isVacant cs = true ↔ isVacantLine (lineOf cs) = true ∧ isVacant (nextLines cs) = true := by
  rw [isVacant, yamlLines_eq cs h, List.all_cons, Bool.and_eq_true, isVacant]

theorem isBreak_of_isSpace {c : Char} (h : isSpace c = true) : isBreak c = false := by
  obtain rfl | rfl : c = ' ' ∨ c = '\t' := by simpa [isSpace] using h
  all_goals decide

theorem isIdle_cons {c : Char} (h : isSpace c = true) (line : List Char) :
    isIdle (c :: line) = isIdle line := by
  rw [isIdle, isIdle, List.dropWhile_cons_of_pos h]

/-- Blanks in front do not matter to idle lines. -/
theorem isIdle_dropWhile {p : Char → Bool} (hp : ∀ x, p x = true → isSpace x = true)
    (cs : List Char) : isIdle (lineOf (cs.dropWhile p)) = isIdle (lineOf cs) := by
  induction cs with
  | nil => rfl
  | cons c rest ih =>
    by_cases hc : p c = true
    · have hspace : isSpace c = true := hp c hc
      rw [List.dropWhile_cons_of_pos hc, ih, lineOf_cons (isBreak_of_isSpace hspace),
        isIdle_cons hspace]
    · rw [List.dropWhile_cons_of_neg hc]

/-- What the rest of an idle line starts with. -/
theorem head_of_idle {cs : List Char} (h : isIdle (lineOf cs) = true) {x : Char}
    (hx : cs.head? = some x) : isSpace x = true ∨ x = '#' ∨ isBreak x = true := by
  cases cs with
  | nil => cases hx
  | cons c rest =>
    cases hx
    by_cases hb : isBreak x = true
    · exact .inr (.inr hb)
    · by_cases hs : isSpace x = true
      · exact .inl hs
      · rw [lineOf_cons (by simpa using hb), isIdle, List.dropWhile_cons_of_neg hs] at h
        exact .inr (.inl (by simpa using h))

theorem lineOf_eq_cons {cs line : List Char} {c : Char} (h : lineOf cs = c :: line) :
    ∃ rest, cs = c :: rest ∧ isBreak c = false ∧ lineOf rest = line := by
  cases cs with
  | nil => cases h
  | cons d rest =>
    by_cases hd : isBreak d = true
    · rw [lineOf_of_break hd] at h
      cases h
    · rw [lineOf_cons (by simpa using hd)] at h
      cases h
      exact ⟨rest, rfl, by simpa using hd, rfl⟩

/-- The characters of the two document markers. -/
def isMarkerChar (c : Char) : Bool := c == '-' || c == '.'

/-- A text whose first line is a marker line starts with the marker. -/
theorem marker_split {cs : List Char} (h : isMarkerLine (lineOf cs) = true) :
    ∃ m rest, isMarkerChar m = true ∧ cs = m :: m :: m :: rest ∧ atGap rest = true ∧
      isIdle (lineOf rest) = true ∧ nextLines cs = nextLines rest := by
  have hsplit {m : Char} {line : List Char} (hline : lineOf cs = m :: m :: m :: line)
      (hgap : (atGap line && isIdle line) = true) : ∃ rest, cs = m :: m :: m :: rest ∧
        atGap rest = true ∧ isIdle (lineOf rest) = true ∧ nextLines cs = nextLines rest := by
    obtain ⟨r₁, rfl, hm, hline⟩ := lineOf_eq_cons hline
    obtain ⟨r₂, rfl, -, hline⟩ := lineOf_eq_cons hline
    obtain ⟨rest, rfl, -, rfl⟩ := lineOf_eq_cons hline
    obtain ⟨hgap, hidle⟩ := Bool.and_eq_true_iff.mp hgap
    refine ⟨rest, rfl, ?_, hidle, by simp only [nextLines_cons hm]⟩
    cases rest with
    | nil => rfl
    | cons c rest =>
      by_cases hc : isBreak c = true
      · simp [atGap, hc]
      · rw [lineOf_cons (by simpa using hc)] at hgap
        exact hgap
  unfold isMarkerLine at h
  split at h
  · obtain ⟨rest, hrest⟩ := hsplit ‹_› h
    exact ⟨'-', rest, rfl, hrest⟩
  · obtain ⟨rest, hrest⟩ := hsplit ‹_› h
    exact ⟨'.', rest, rfl, hrest⟩
  · cases h

/-- A text whose first line is a directive starts with a percent sign. -/
theorem directive_split {cs : List Char} (h : isDirectiveLine (lineOf cs) = true) :
    ∃ rest, cs = '%' :: rest := by
  unfold isDirectiveLine at h
  cases hline : lineOf cs with
  | nil => simp [hline] at h
  | cons c line =>
    obtain rfl : c = '%' := by simpa [hline] using h
    obtain ⟨rest, rfl, -, -⟩ := lineOf_eq_cons hline
    exact ⟨rest, rfl⟩

end CommandSpec.Yaml
