import CommandSpec.Proofs.SourceLines
import CommandSpec.Text.Blank

/-! The nesting of a generated source. Lines open and close blocks, and each line stands at a depth:
the number of blocks open there. Whatever steps are written at a level, their lines stand at that
level or deeper, are indented by their depth and leave the depth as it was (`Nests`); a line that
opens, a block one level deeper and a line that closes are such steps (`Nests.enclosed`), and the
whole layout is put together from these. -/
namespace CommandSpec.SourceText
open Layout

/-! ## Lines and their depth -/

/-- The lines of a text whose last line ends too. -/
def sourceLines (text : List Char) : List (List Char) := (text.splitOn '\n').dropLast

def isComment (line : List Char) : Bool := "//".toList.isPrefixOf (line.dropWhile (· == ' '))

/-- Whether a block starts behind the line. -/
def opensBlock (line : List Char) : Bool :=
  !isComment line && (line.getLast? == some '{' || line.getLast? == some '[')

/-- Whether a block ends before the line. -/
def closesBlock (line : List Char) : Bool :=
  match line.dropWhile (· == ' ') with
  | '}' :: _ | ']' :: _ => true
  | _ => false

/-- The lines, each with the number of blocks that are open at it. -/
def depths (depth : Int) : List (List Char) → List (Int × List Char)
  | [] => []
  | line :: rest =>
    let here := if closesBlock line then depth - 1 else depth
    (here, line) :: depths (if opensBlock line then here + 1 else here) rest

/-- The line is indented by its depth, unless it is empty, and does not end in a blank. -/
structure Placed (depth : Int) (line : List Char) : Prop where
  indented : line ≠ [] → (line.takeWhile (· == ' ')).length = 4 * depth
  trimmed : ∀ c ∈ line.getLast?, Text.isBlank c = false

theorem placed_of_getLast {depth : Int} {line : List Char} {d : Char}
    (hindented : (line.takeWhile (· == ' ')).length = 4 * depth) (hlast : line.getLast? = some d)
    (hd : Text.isBlank d = false) : Placed depth line where
  indented _ := hindented
  trimmed e he := by
    rw [hlast] at he
    cases he
    exact hd

theorem placed_nil (depth : Int) : Placed depth [] := ⟨fun h => absurd rfl h, nofun⟩

theorem sourceLines_cons (line rest : List Char) (h : '\n' ∉ line) :
    sourceLines (line ++ '\n' :: rest) = line :: sourceLines rest := by
  unfold sourceLines
  rw [List.splitOn_append_cons_self_of_not_mem h, List.dropLast_cons_of_ne_nil]
  exact List.splitOn_ne_nil '\n' rest

/-! ## Steps that nest -/

/-- Written at a level, the steps give lines that are placed at that level or deeper, and what comes
behind stands at the level again. -/
def Nests (steps : List Step) : Prop :=
  ∀ (level : Nat) (rest : List Char), ∃ here : List (Int × List Char),
    (∀ l ∈ here, (level : Int) ≤ l.1 ∧ Placed l.1 l.2) ∧
      depths level (sourceLines ((blockText "    " level steps).toList ++ rest)) =
        here ++ depths level (sourceLines rest)

theorem length_indentationAt (level : Nat) :
    (indentationAt "    " level).toList.length = 4 * level := by
  unfold indentationAt
  rw [String.toList_join]
  simp [Nat.mul_comm]

/-- What a line starts with if it is neither indented nor a comment and closes nothing. -/
def startsPlainly (cs : List Char) : Bool :=
  match cs with
  | c :: _ => !" /\x7d]".toList.contains c
  | [] => false

/-- What a line ends with that opens nothing. -/
def endsPlainly (cs : List Char) : Bool :=
  match cs.getLast? with
  | some c => !Text.isBlank c && !"\x7b[".toList.contains c
  | none => false

/-- Whether it ends in what opens a block. -/
def endsOpening (cs : List Char) : Bool := cs.getLast? == some '{' || cs.getLast? == some '['

theorem startsPlainly_append {a : List Char} (h : startsPlainly a = true) (b : List Char) :
    startsPlainly (a ++ b) = true := by
  cases a with
  | nil => cases h
  | cons c rest => exact h

theorem endsPlainly_append (a : List Char) {b : List Char} (h : endsPlainly b = true) :
    endsPlainly (a ++ b) = true := by
  have hne : b ≠ [] := by
    rintro rfl
    cases h
  unfold endsPlainly at h ⊢
  rwa [List.getLast?_append_of_ne_nil a hne]

theorem endsOpening_append (a : List Char) {b : List Char} (h : endsOpening b = true) :
    endsOpening (a ++ b) = true := by
  have hne : b ≠ [] := by
    rintro rfl
    cases h
  unfold endsOpening at h ⊢
  rwa [List.getLast?_append_of_ne_nil a hne]

/-- A line as it stands at a level. -/
def indentedLine (level : Nat) (s : String) : List Char :=
  (indentationAt "    " level).toList ++ s.toList

section Line

variable {s : String} {c d : Char} {cs : List Char}

theorem takeWhile_indentedLine (level : Nat) (hs : s.toList = c :: cs) (hc : c ≠ ' ') :
    ((indentedLine level s).takeWhile (· == ' ')).length = 4 * level := by
  unfold indentedLine
  rw [List.takeWhile_append_of_pos fun c hc => by simp [indentationAt_spaces level c hc], hs,
    List.takeWhile_cons_of_neg (by simpa using hc), List.append_nil, length_indentationAt]

theorem getLast?_indentedLine (level : Nat) (hs : s.toList = c :: cs) :
    (indentedLine level s).getLast? = s.toList.getLast? := by
  unfold indentedLine
  rw [hs, List.getLast?_append_of_ne_nil _ (List.cons_ne_nil c cs)]

/-- A line that is not indented any further is placed at its level. -/
theorem placed_indentedLine (level : Nat) (hs : s.toList = c :: cs) (hc : c ≠ ' ')
    (hlast : s.toList.getLast? = some d) (hd : Text.isBlank d = false) :
    Placed level (indentedLine level s) := by
  have hindented := takeWhile_indentedLine level hs hc
  exact placed_of_getLast (by exact_mod_cast hindented)
    ((getLast?_indentedLine level hs).trans hlast) hd

/-- The indentation does not matter to what a line opens and closes. -/
theorem depths_lineText (depth : Int) (level : Nat) (hs : s.toList = c :: cs)
    (hline : '\n' ∉ s.toList) (rest : List Char) :
    depths depth (sourceLines ((lineText "    " level s).toList ++ rest)) =
      let here := if closesBlock s.toList then depth - 1 else depth
      (here, indentedLine level s) ::
        depths (if opensBlock s.toList then here + 1 else here) (sourceLines rest) := by
  have hne : s.isEmpty = false := by
    refine Bool.eq_false_iff.mpr fun h => ?_
    rw [String.isEmpty_iff.mp h] at hs
    cases hs
  have hspaces : '\n' ∉ (indentationAt "    " level).toList := fun hm =>
    absurd (indentationAt_spaces level _ hm) (by decide)
  have htext : (lineText "    " level s).toList ++ rest = indentedLine level s ++ '\n' :: rest := by
    unfold lineText indentedLine
    rw [hne, if_neg Bool.false_ne_true]
    simp [String.toList_append]
  have hcloses : closesBlock (indentedLine level s) = closesBlock s.toList := by
    unfold closesBlock indentedLine
    rw [dropWhile_indentationAt]
  have hopens : opensBlock (indentedLine level s) = opensBlock s.toList := by
    unfold opensBlock isComment
    rw [getLast?_indentedLine level hs]
    unfold indentedLine
    rw [dropWhile_indentationAt]
  have hmem : '\n' ∉ indentedLine level s := List.not_mem_append hspaces hline
  rw [htext, sourceLines_cons _ _ hmem, depths, hcloses, hopens]

end Line

theorem startsPlainly_cases {cs : List Char} (h : startsPlainly cs = true) :
    ∃ c rest, cs = c :: rest ∧ c ≠ ' ' ∧ c ≠ '/' ∧ c ≠ '}' ∧ c ≠ ']' := by
  cases cs with
  | nil => cases h
  | cons c rest =>
    refine ⟨c, rest, rfl, ?_⟩
    simpa [startsPlainly, not_or] using h

theorem endsPlainly_cases {cs : List Char} (h : endsPlainly cs = true) :
    ∃ c, cs.getLast? = some c ∧ Text.isBlank c = false ∧ c ≠ '{' ∧ c ≠ '[' := by
  unfold endsPlainly at h
  split at h
  · rename_i c hc
    exact ⟨c, hc, by simpa [not_or] using h⟩
  · cases h

theorem closesBlock_of_startsPlainly {cs : List Char} (h : startsPlainly cs = true) :
    closesBlock cs = false := by
  obtain ⟨c, rest, rfl, hspace, -, hbrace, hbracket⟩ := startsPlainly_cases h
  unfold closesBlock
  rw [List.dropWhile_cons_of_neg (by simpa using hspace)]
  split
  · rename_i h
    cases h
    exact absurd rfl hbrace
  · rename_i h
    cases h
    exact absurd rfl hbracket
  · rfl

theorem opensBlock_of_endsPlainly {cs : List Char} (h : endsPlainly cs = true) :
    opensBlock cs = false := by
  obtain ⟨c, hlast, -, hbrace, hbracket⟩ := endsPlainly_cases h
  unfold opensBlock
  rw [hlast]
  simp [hbrace, hbracket]

theorem opensBlock_of_endsOpening {cs : List Char} (hstart : startsPlainly cs = true)
    (hend : endsOpening cs = true) : opensBlock cs = true := by
  obtain ⟨c, rest, rfl, hspace, hslash, -⟩ := startsPlainly_cases hstart
  have hcomment : isComment (c :: rest) = false := by
    have hprefix : "//".toList.isPrefixOf (c :: rest) = ('/' == c && ['/'].isPrefixOf rest) := rfl
    unfold isComment
    rw [List.dropWhile_cons_of_neg (by simpa using hspace), hprefix, beq_false_of_ne hslash.symm,
      Bool.false_and]
  unfold opensBlock
  rw [hcomment]
  exact hend

namespace Nests

theorem nil : Nests [] := fun _ _ => ⟨[], by simp, rfl⟩

theorem append {steps more : List Step} (h : Nests steps) (hm : Nests more) :
    Nests (steps ++ more) := by
  intro level rest
  obtain ⟨there, hthere, hmore⟩ := hm level rest
  obtain ⟨here, hhere, hsteps⟩ := h level ((blockText "    " level more).toList ++ rest)
  refine ⟨here ++ there, List.forall_mem_append.mpr ⟨hhere, hthere⟩, ?_⟩
  rw [blockText_append, String.toList_append, List.append_assoc, hsteps, hmore, List.append_assoc]

theorem flatMap {α : Type} (steps : α → List Step) (as : List α)
    (h : ∀ a ∈ as, Nests (steps a)) : Nests (as.flatMap steps) := by
  induction as with
  | nil => exact nil
  | cons a as ih =>
    obtain ⟨ha, has⟩ := List.forall_mem_cons.mp h
    exact ha.append (ih has)

/-- Steps that nest one by one. -/
theorem each {steps : List Step} (h : ∀ step ∈ steps, Nests [step]) : Nests steps := by
  have hall := flatMap (fun step => [step]) steps h
  rwa [List.flatMap_singleton'] at hall

theorem blank : Nests [.blank] := by
  intro level rest
  have hblank : (blockText "    " level [.blank]).toList ++ rest = [] ++ '\n' :: rest := by
    simp [blockText, Step.textAt]
  refine ⟨[(level, [])], ?_, ?_⟩
  · simpa using placed_nil level
  · rw [hblank, sourceLines_cons [] rest List.not_mem_nil]
    rfl

/-- A line that opens and closes nothing. -/
theorem neutral {s : String} {c d : Char} {cs : List Char} (hs : s.toList = c :: cs) (hc : c ≠ ' ')
    (hline : '\n' ∉ s.toList) (hlast : s.toList.getLast? = some d) (hd : Text.isBlank d = false)
    (hcloses : closesBlock s.toList = false) (hopens : opensBlock s.toList = false) :
    Nests [.line s] := by
  intro level rest
  have htext : blockText "    " level [.line s] = lineText "    " level s := by
    simp [blockText, Step.textAt]
  refine ⟨[(level, indentedLine level s)], ?_, ?_⟩
  · simpa using placed_indentedLine level hs hc hlast hd
  · rw [htext, depths_lineText level level hs hline, hcloses, hopens]
    rfl

/-- A line of code between blocks. -/
theorem line {s : String} (hstart : startsPlainly s.toList = true)
    (hend : endsPlainly s.toList = true) (hline : '\n' ∉ s.toList) : Nests [.line s] := by
  obtain ⟨c, cs, hs, hspace, -⟩ := startsPlainly_cases hstart
  obtain ⟨d, hlast, hd, -⟩ := endsPlainly_cases hend
  exact neutral hs hspace hline hlast hd (closesBlock_of_startsPlainly hstart)
    (opensBlock_of_endsPlainly hend)

theorem comment {s : String} (hs : "//".toList <+: s.toList) (hline : '\n' ∉ s.toList) {d : Char}
    (hlast : s.toList.getLast? = some d) (hd : Text.isBlank d = false) : Nests [.line s] := by
  obtain ⟨cs, hcs⟩ := hs
  have hslashes : s.toList = '/' :: '/' :: cs := hcs.symm
  refine neutral hslashes (by decide) hline hlast hd ?_ ?_
  · rw [hslashes]
    rfl
  · unfold opensBlock isComment
    rw [hslashes]
    rfl

/-- Only the text of the steps matters. -/
theorem of_text {steps others : List Step} (h : Nests steps)
    (htext : ∀ level, blockText "    " level others = blockText "    " level steps) :
    Nests others := by
  intro level rest
  rw [htext]
  exact h level rest

theorem spacedLine {s : String} (h : Nests [.line s]) : Nests [.spacedLine s] :=
  (h.append blank).of_text fun level => by simp [blockText, Step.textAt]

/-- Lines of code that are given as they stand. -/
theorem lines (ss : List String) (h : ∀ s ∈ ss, startsPlainly s.toList = true ∧
    endsPlainly s.toList = true ∧ '\n' ∉ s.toList) : Nests (ss.map .line) := by
  refine each (List.forall_mem_map.mpr fun s hs => ?_)
  obtain ⟨hstart, hend, hline⟩ := h s hs
  exact line hstart hend hline

/-- A line of code with a fixed start and a fixed end. -/
theorem framed {start finish s : String} (hstart : startsPlainly start.toList = true)
    (hfinish : endsPlainly finish.toList = true) (hs : '\n' ∉ s.toList)
    (hstartLine : '\n' ∉ start.toList) (hfinishLine : '\n' ∉ finish.toList) :
    Nests [.line (start ++ s ++ finish)] := by
  refine line ?_ ?_ ?_ <;> rw [String.toList_append, String.toList_append]
  · exact startsPlainly_append (startsPlainly_append hstart _) _
  · exact endsPlainly_append _ hfinish
  · exact List.not_mem_append (List.not_mem_append hstartLine hs) hfinishLine

end Nests

/-- A line that opens a block. -/
structure Opener (s : String) : Prop where
  start : startsPlainly s.toList = true
  finish : endsOpening s.toList = true
  line : '\n' ∉ s.toList

theorem Opener.framed {start finish s : String} (hstart : startsPlainly start.toList = true)
    (hfinish : endsOpening finish.toList = true) (hs : '\n' ∉ s.toList)
    (hstartLine : '\n' ∉ start.toList) (hfinishLine : '\n' ∉ finish.toList) :
    Opener (start ++ s ++ finish) := by
  constructor <;> rw [String.toList_append, String.toList_append]
  · exact startsPlainly_append (startsPlainly_append hstart _) _
  · exact endsOpening_append _ hfinish
  · exact List.not_mem_append (List.not_mem_append hstartLine hs) hfinishLine

/-- A line that closes a block and opens none. -/
def isCloser (cs : List Char) : Bool :=
  match cs with
  | '}' :: _ | ']' :: _ => endsPlainly cs && !cs.contains '\n'
  | _ => false

theorem isCloser_cases {cs : List Char} (h : isCloser cs = true) :
    ∃ c rest, cs = c :: rest ∧ c ≠ ' ' ∧ closesBlock cs = true ∧ endsPlainly cs = true ∧
      '\n' ∉ cs := by
  unfold isCloser at h
  split at h
  · obtain ⟨hend, hline⟩ := Bool.and_eq_true_iff.mp h
    exact ⟨_, _, rfl, by decide, rfl, hend, by simpa using hline⟩
  · obtain ⟨hend, hline⟩ := Bool.and_eq_true_iff.mp h
    exact ⟨_, _, rfl, by decide, rfl, hend, by simpa using hline⟩
  · cases h

theorem depths_opener {s : String} (h : Opener s) (level : Nat) (rest : List Char) :
    Placed level (indentedLine level s) ∧
      depths level (sourceLines ((lineText "    " level s).toList ++ rest)) =
        (↑level, indentedLine level s) :: depths (level + 1 : Nat) (sourceLines rest) := by
  have hopens := opensBlock_of_endsOpening h.start h.finish
  have hcloses := closesBlock_of_startsPlainly h.start
  obtain ⟨c, cs, hs, hc, -⟩ := startsPlainly_cases h.start
  have hlast : ∃ b, s.toList.getLast? = some b ∧ Text.isBlank b = false := by
    rcases Bool.or_eq_true_iff.mp h.finish with hb | hb
    · exact ⟨_, beq_iff_eq.mp hb, by decide⟩
    · exact ⟨_, beq_iff_eq.mp hb, by decide⟩
  obtain ⟨b, hb, hblank⟩ := hlast
  refine ⟨placed_indentedLine level hs hc hb hblank, ?_⟩
  rw [depths_lineText level level hs h.line, hcloses, hopens]
  rfl

theorem depths_closer {s : String} (h : isCloser s.toList = true) (level : Nat)
    (rest : List Char) :
    Placed level (indentedLine level s) ∧
      depths (level + 1 : Nat) (sourceLines ((lineText "    " level s).toList ++ rest)) =
        (↑level, indentedLine level s) :: depths level (sourceLines rest) := by
  obtain ⟨c, cs, hs, hc, hcloses, hend, hline⟩ := isCloser_cases h
  obtain ⟨d, hlast, hd, -⟩ := endsPlainly_cases hend
  have hopens := opensBlock_of_endsPlainly hend
  have hlevel : ((level + 1 : Nat) : Int) - 1 = level := by omega
  refine ⟨placed_indentedLine level hs hc hlast hd, ?_⟩
  rw [depths_lineText _ level hs hline, hcloses, hopens]
  simp only [if_true, Bool.false_eq_true, if_false, hlevel]

/-- A line that opens, the block, and a line that closes it. -/
theorem Nests.enclosed {opener closer : String} {steps : List Step} (h : Nests steps)
    (hopener : Opener opener) (hcloser : isCloser closer.toList = true) :
    Nests [.line opener, .block steps, .line closer] := by
  intro level rest
  obtain ⟨hfirst, hopens⟩ := depths_opener hopener level
    ((blockText "    " (level + 1) steps).toList ++ ((lineText "    " level closer).toList ++ rest))
  obtain ⟨here, hhere, hsteps⟩ := h (level + 1) ((lineText "    " level closer).toList ++ rest)
  obtain ⟨hlast, hcloses⟩ := depths_closer hcloser level rest
  have htext : (blockText "    " level [.line opener, .block steps, .line closer]).toList ++ rest =
      (lineText "    " level opener).toList ++ ((blockText "    " (level + 1) steps).toList ++
        ((lineText "    " level closer).toList ++ rest)) := by
    simp [blockText, Step.textAt, String.toList_append]
  refine ⟨(↑level, indentedLine level opener) :: (here ++ [(↑level, indentedLine level closer)]),
    List.forall_mem_cons.mpr ⟨⟨Int.le_refl _, hfirst⟩, List.forall_mem_append.mpr
      ⟨fun l hl => ⟨?_, (hhere l hl).2⟩, by simpa using hlast⟩⟩, ?_⟩
  · have hdeeper := (hhere l hl).1
    omega
  · rw [htext, hopens, hsteps, hcloses]
    simp

theorem Nests.enclosed_spaced {opener closer : String} {steps : List Step} (h : Nests steps)
    (hopener : Opener opener) (hcloser : isCloser closer.toList = true) :
    Nests [.line opener, .block steps, .spacedLine closer] :=
  ((h.enclosed hopener hcloser).append blank).of_text fun level => by
    simp [blockText, Step.textAt]

end CommandSpec.SourceText
