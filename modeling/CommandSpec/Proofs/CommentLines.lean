import CommandSpec.Proofs.LayoutLines
import Mathlib.Data.List.Chain
import Mathlib.Data.List.TakeWhile

/-! Doc comments line by line. A comment has a line for each line of its text only if line feeds,
with or without a carriage return in front, are all the line breaks there are. A carriage return by
itself breaks no line; what stands on its two sides ends up on one line of the comment, with the
carriage return between them (`docComment_faithful_iff`, `loneReturn_stays_in_line`). -/
namespace CommandSpec

namespace Text

/-! ## Line breaks -/

/-- The lines of a text, one more than its line breaks: a line feed, a carriage return, or a
carriage return and a line feed. -/
def brokenLines : List Char → List (List Char)
  | [] => [[]]
  | '\r' :: '\n' :: rest => [] :: brokenLines rest
  | c :: rest =>
    if c == '\n' || c == '\r' then [] :: brokenLines rest
    else (brokenLines rest).modifyHead (c :: ·)

/-- Whatever stands right behind a carriage return is a line feed. -/
def ReturnsPaired (cs : List Char) : Prop := cs.IsChain fun a b => a = '\r' → b = '\n'

instance (cs : List Char) : Decidable (ReturnsPaired cs) :=
  inferInstanceAs (Decidable (cs.IsChain fun a b => a = '\r' → b = '\n'))

/-- The text ends in a character that is no line break. -/
def EndsInLine (cs : List Char) : Prop := ∃ c, cs.getLast? = some c ∧ c ≠ '\n' ∧ c ≠ '\r'

theorem returnsPaired_cons (c : Char) (rest : List Char) :
    ReturnsPaired (c :: rest) ↔ (∀ d ∈ rest.head?, c = '\r' → d = '\n') ∧ ReturnsPaired rest :=
  List.isChain_cons

theorem EndsInLine.of_cons {c : Char} {rest : List Char} (h : EndsInLine (c :: rest))
    (hc : c = '\n' ∨ rest ≠ []) : EndsInLine rest := by
  cases rest with
  | nil =>
    obtain ⟨d, hd, hfeed, -⟩ := h
    cases hd
    exact absurd rfl (hc.resolve_left hfeed)
  | cons d rest => rwa [EndsInLine, List.getLast?_cons_cons] at h

theorem brokenLines_feed (rest : List Char) :
    brokenLines ('\n' :: rest) = [] :: brokenLines rest := by
  rw [brokenLines.eq_3 _ _ (by simp)]
  rfl

theorem brokenLines_return {rest : List Char} (h : rest.head? ≠ some '\n') :
    brokenLines ('\r' :: rest) = [] :: brokenLines rest := by
  rw [brokenLines.eq_3 _ _ fun _ _ hrest => h (by rw [hrest]; rfl)]
  rfl

theorem brokenLines_char {c : Char} (hfeed : c ≠ '\n') (hreturn : c ≠ '\r') (rest : List Char) :
    brokenLines (c :: rest) = (brokenLines rest).modifyHead (c :: ·) := by
  rw [brokenLines.eq_3 _ _ fun _ hc => absurd hc hreturn, if_neg (by simp [hfeed, hreturn])]

theorem brokenLines_ne_nil (cs : List Char) : brokenLines cs ≠ [] := by
  fun_induction brokenLines cs with
  | case1 => simp
  | case2 => simp
  | case3 => simp
  | case4 c rest hpair hc ih =>
    obtain ⟨line, more, hlines⟩ := List.exists_cons_of_ne_nil ih
    simp [hlines]

theorem brokenLines_break (cs : List Char) :
    ∀ line ∈ brokenLines cs, '\n' ∉ line ∧ '\r' ∉ line := by
  fun_induction brokenLines cs with
  | case1 => simp
  | case2 rest ih => exact List.forall_mem_cons.mpr ⟨by simp, ih⟩
  | case3 c rest hpair hc ih => exact List.forall_mem_cons.mpr ⟨by simp, ih⟩
  | case4 c rest hpair hc ih =>
    obtain ⟨line, more, hlines⟩ := List.exists_cons_of_ne_nil (brokenLines_ne_nil rest)
    rw [hlines] at ih ⊢
    obtain ⟨hline, hmore⟩ := List.forall_mem_cons.mp ih
    refine List.forall_mem_cons.mpr ⟨?_, hmore⟩
    have hc : c ≠ '\n' ∧ c ≠ '\r' := by simpa using hc
    simp [hline, hc.1.symm, hc.2.symm]

/-! ## Lines that end in line feeds -/

theorem lines_eq_nil_iff (cs : List Char) : lines cs = [] ↔ cs = [] := by
  fun_induction lines cs <;> simp

/-- Where carriage returns are paired, line feeds alone tell all lines apart. -/
theorem lines_eq_brokenLines {cs : List Char} (hend : EndsInLine cs) (h : ReturnsPaired cs) :
    lines cs = brokenLines cs := by
  induction cs using lines.induct with
  | case1 =>
    obtain ⟨c, hc, -⟩ := hend
    cases hc
  | case2 rest ih =>
    rw [lines, brokenLines_feed, ih (hend.of_cons (Or.inl rfl)) ((returnsPaired_cons ..).mp h).2]
  | case3 rest ih =>
    have hrest : EndsInLine ('\n' :: rest) := hend.of_cons (Or.inr (by simp))
    have h := ((returnsPaired_cons ..).mp ((returnsPaired_cons ..).mp h).2).2
    rw [lines, brokenLines, ih (hrest.of_cons (Or.inl rfl)) h]
  | case4 c rest hfeed hreturn hlines ih =>
    obtain rfl := (lines_eq_nil_iff rest).mp hlines
    obtain ⟨d, hd, hbreak⟩ := hend
    cases hd
    have hc : c ≠ '\r' := hbreak.2
    rw [lines.eq_4 c [] hfeed hreturn, brokenLines_char hfeed hc]
    rfl
  | case5 c rest hfeed hreturn line more hlines ih =>
    have hne : rest ≠ [] := fun hnil => by
      rw [hnil] at hlines
      cases hlines
    obtain ⟨hpair, hrest⟩ := (returnsPaired_cons ..).mp h
    have hc : c ≠ '\r' := by
      rintro rfl
      obtain ⟨d, rest, rfl⟩ := List.exists_cons_of_ne_nil hne
      exact hreturn rest rfl (by rw [hpair d rfl rfl])
    rw [lines.eq_4 c rest hfeed hreturn, brokenLines_char hfeed hc,
      ← ih (hend.of_cons (Or.inr hne)) hrest, hlines]
    rfl

theorem length_lines_le (cs : List Char) : (lines cs).length ≤ (brokenLines cs).length := by
  induction cs using lines.induct with
  | case1 => simp [lines]
  | case2 rest ih =>
    rw [lines, brokenLines_feed]
    exact Nat.succ_le_succ ih
  | case3 rest ih => exact Nat.succ_le_succ ih
  | case4 c rest hfeed hreturn hlines ih =>
    rw [lines.eq_4 c rest hfeed hreturn, hlines]
    exact List.length_pos_of_ne_nil (brokenLines_ne_nil _)
  | case5 c rest hfeed hreturn line more hlines ih =>
    rw [lines.eq_4 c rest hfeed hreturn, brokenLines.eq_3 c rest hreturn]
    rw [hlines] at ih ⊢
    by_cases hc : (c == '\n' || c == '\r') = true
    · rw [if_pos hc]
      exact Nat.le_succ_of_le ih
    · rwa [if_neg hc, List.length_modifyHead]

/-- A carriage return by itself costs a line. -/
theorem length_lines_lt {cs : List Char} (h : ¬ReturnsPaired cs) :
    (lines cs).length < (brokenLines cs).length := by
  induction cs using lines.induct with
  | case1 => exact absurd .nil h
  | case2 rest ih =>
    rw [returnsPaired_cons] at h
    rw [lines, brokenLines_feed]
    exact Nat.succ_lt_succ (ih fun hrest => h ⟨by simp, hrest⟩)
  | case3 rest ih =>
    rw [returnsPaired_cons, returnsPaired_cons] at h
    exact Nat.succ_lt_succ (ih fun hrest => h ⟨by simp, by simp, hrest⟩)
  | case4 c rest hfeed hreturn hlines ih =>
    obtain rfl := (lines_eq_nil_iff rest).mp hlines
    exact absurd (List.isChain_singleton c) h
  | case5 c rest hfeed hreturn line more hlines ih =>
    have hle := length_lines_le rest
    rw [lines.eq_4 c rest hfeed hreturn]
    rw [hlines] at ih hle ⊢
    by_cases hc : c = '\r'
    · have hhead : rest.head? ≠ some '\n' := fun hhead => by
        obtain ⟨tail, htail⟩ := List.head?_eq_some_iff.mp hhead
        exact hreturn tail hc htail
      rw [hc, brokenLines_return hhead]
      exact Nat.lt_succ_of_le hle
    · have hlt := ih fun hrest =>
        h ((returnsPaired_cons ..).mpr ⟨fun _ _ hr => absurd hr hc, hrest⟩)
      rwa [brokenLines_char hfeed hc, List.length_modifyHead]

/-! ## Trimmed texts -/

theorem trimEnd_eq_nil_iff (cs : List Char) : trimEnd cs = [] ↔ cs.all isBlank = true := by
  unfold trimEnd
  rw [List.reverse_eq_nil_iff, List.dropWhile_eq_nil_iff, List.all_eq_true]
  simp only [List.mem_reverse]

theorem trim_eq_nil_iff (cs : List Char) : trim cs = [] ↔ cs.all isBlank = true := by
  have hall : cs.all isBlank = (trimStart cs).all isBlank := by
    conv_lhs => rw [← List.takeWhile_append_dropWhile (p := isBlank) (l := cs)]
    rw [List.all_append, List.all_takeWhile, Bool.true_and]
    rfl
  rw [trim, trimEnd_eq_nil_iff, hall]

theorem endsInLine_trim {cs : List Char} (h : trim cs ≠ []) : EndsInLine (trim cs) := by
  obtain ⟨c, hc⟩ := Option.isSome_iff_exists.mp (List.getLast?_isSome.mpr h)
  have hblank := SourceText.getLast?_trimEnd (trimStart cs) c hc
  refine ⟨c, hc, ?_, ?_⟩ <;>
  · rintro rfl
    cases hblank

end Text

open Layout

/-! ## Comments -/

/-- A line of a comment: the mark, and the line of the text without blanks at its end. -/
def commentLine (line : List Char) : String :=
  if line.all Text.isBlank then "///" else "/// " ++ String.ofList (Text.trimEnd line)

/-- The comment for a text: nothing if the text is blank, or else one line for each line that it has
without blanks at both ends. -/
def commentLines (text : String) : List String :=
  if Text.isBlankText text then [] else (Text.brokenLines (Text.trim text.toList)).map commentLine

/-- The text of lines at a level. -/
def linesText (level : Nat) (ls : List String) : String :=
  String.join (ls.map (lineText "    " level))

theorem mem_commentLine {line : List Char} {c : Char} (h : c ∈ (commentLine line).toList) :
    c ∈ "/// ".toList ∨ c ∈ line := by
  unfold commentLine at h
  split at h
  · exact Or.inl (List.mem_append_left [' '] h)
  · rw [String.toList_append] at h
    refine (List.mem_append.mp h).imp_right fun hm => SourceText.trimEnd_subset line ?_
    rwa [String.toList_ofList] at hm

theorem commentLine_newline {line : List Char} (h : '\n' ∉ line) :
    '\n' ∉ (commentLine line).toList :=
  fun hm => (mem_commentLine hm).elim (by decide) h

/-- The lines that a comment has are those that end in line feeds. -/
theorem docComment_eq (text : String) :
    docComment (some text) =
      ((Text.lines (Text.trim text.toList)).map commentLine).map Step.line := by
  rw [List.map_map]
  refine List.map_congr_left fun line _ => ?_
  have hblank : (Text.trimEnd line).isEmpty = line.all Text.isBlank := by
    rw [Bool.eq_iff_iff, List.isEmpty_iff, Text.trimEnd_eq_nil_iff]
  simp only [hblank, commentLine, Function.comp]
  split <;> rfl

/-! ## What is written -/

theorem blockText_lines (level : Nat) (ls : List String) :
    blockText "    " level (ls.map Step.line) = linesText level ls := by
  induction ls with
  | nil => rfl
  | cons s ls ih => simp [blockText, Step.textAt, ih, linesText]

theorem mem_lineText {level : Nat} {s : String} {c : Char}
    (h : c ∈ (lineText "    " level s).toList) : c = ' ' ∨ c = '\n' ∨ c ∈ s.toList := by
  unfold lineText at h
  split at h
  · exact Or.inr (Or.inl (List.mem_singleton.mp h))
  · rw [String.toList_append, String.toList_append] at h
    rcases List.mem_append.mp h with h | h
    · exact (List.mem_append.mp h).imp (indentationAt_spaces level c) Or.inr
    · exact Or.inr (Or.inl (List.mem_singleton.mp h))

theorem count_lineText (level : Nat) {s : String} (h : '\n' ∉ s.toList) :
    (lineText "    " level s).toList.count '\n' = 1 := by
  have hspaces : '\n' ∉ (indentationAt "    " level).toList := fun hm =>
    absurd (indentationAt_spaces level _ hm) (by decide)
  unfold lineText
  split
  · rfl
  · rw [String.toList_append, String.toList_append, List.count_append, List.count_append,
      List.count_eq_zero.mpr hspaces, List.count_eq_zero.mpr h]
    rfl

theorem count_linesText (level : Nat) (ls : List String) (h : ∀ s ∈ ls, '\n' ∉ s.toList) :
    (linesText level ls).toList.count '\n' = ls.length := by
  induction ls with
  | nil => rfl
  | cons s ls ih =>
    obtain ⟨hs, hls⟩ := List.forall_mem_cons.mp h
    have hcons : linesText level (s :: ls) = lineText "    " level s ++ linesText level ls := by
      simp [linesText]
    rw [hcons, String.toList_append, List.count_append, count_lineText level hs, ih hls,
      List.length_cons, Nat.add_comm]

/-- What is written for a text, and how many lines that is. -/
theorem blockText_docComment (text : String) (level : Nat) :
    blockText "    " level (docComment (some text)) =
        linesText level ((Text.lines (Text.trim text.toList)).map commentLine) ∧
      (blockText "    " level (docComment (some text))).toList.count '\n' =
        (Text.lines (Text.trim text.toList)).length := by
  have hnewline : ∀ s ∈ (Text.lines (Text.trim text.toList)).map commentLine, '\n' ∉ s.toList :=
    List.forall_mem_map.mpr fun line hl => commentLine_newline (SourceText.lines_newline _ line hl)
  rw [docComment_eq, blockText_lines]
  exact ⟨rfl, (count_linesText level _ hnewline).trans (List.length_map _)⟩

theorem count_commentLines (text : String) (level : Nat) (h : Text.isBlankText text = false) :
    (linesText level (commentLines text)).toList.count '\n' =
      (Text.brokenLines (Text.trim text.toList)).length := by
  have hlines : commentLines text = (Text.brokenLines (Text.trim text.toList)).map commentLine :=
    if_neg (by simp [h])
  have hnewline : ∀ s ∈ commentLines text, '\n' ∉ s.toList := by
    rw [hlines]
    exact List.forall_mem_map.mpr fun line hl =>
      commentLine_newline (Text.brokenLines_break _ line hl).1
  rw [count_linesText level _ hnewline, hlines, List.length_map]

theorem return_not_mem_linesText (text : String) (level : Nat) :
    '\r' ∉ (linesText level (commentLines text)).toList := by
  rw [linesText, String.toList_join]
  intro hm
  obtain ⟨written, hwritten, hm⟩ := List.mem_flatMap.mp hm
  obtain ⟨s, hs, rfl⟩ := List.mem_map.mp hwritten
  have hline : '\r' ∈ s.toList := by simpa using mem_lineText hm
  unfold commentLines at hs
  split at hs
  · cases hs
  · obtain ⟨line, hl, rfl⟩ := List.mem_map.mp hs
    exact (mem_commentLine hline).elim (by decide) (Text.brokenLines_break _ line hl).2

/-! ## Faithful comments -/

theorem docComment_blank_iff (text : String) (level : Nat) :
    blockText "    " level (docComment (some text)) = "" ↔ Text.isBlankText text = true := by
  obtain ⟨hwritten, hcount⟩ := blockText_docComment text level
  have hblank : Text.trim text.toList = [] ↔ Text.isBlankText text = true :=
    Text.trim_eq_nil_iff _
  rw [← hblank, ← Text.lines_eq_nil_iff, ← List.length_eq_zero_iff]
  constructor
  · intro hempty
    rw [← hcount, hempty]
    rfl
  · intro hlength
    rw [hwritten, List.length_eq_zero_iff.mp hlength]
    rfl

theorem docComment_eq_commentLines_iff (text : String) (level : Nat) :
    blockText "    " level (docComment (some text)) = linesText level (commentLines text) ↔
      Text.ReturnsPaired (Text.trim text.toList) := by
  obtain ⟨hwritten, hcount⟩ := blockText_docComment text level
  cases hblank : Text.isBlankText text with
  | true =>
    have hnil : Text.trim text.toList = [] := (Text.trim_eq_nil_iff _).mpr hblank
    rw [hwritten, commentLines, if_pos hblank, hnil]
    exact iff_of_true rfl .nil
  | false =>
    have hne : Text.trim text.toList ≠ [] := fun hnil =>
      Bool.false_ne_true (hblank.symm.trans ((Text.trim_eq_nil_iff _).mp hnil))
    constructor
    · intro heq
      by_contra hlone
      have hlt := Text.length_lines_lt hlone
      rw [← hcount, heq, count_commentLines text level hblank] at hlt
      exact Nat.lt_irrefl _ hlt
    · intro hpaired
      rw [hwritten, Text.lines_eq_brokenLines (Text.endsInLine_trim hne) hpaired, commentLines,
        if_neg (by simp [hblank])]

/-- **A doc comment has the lines of its text just if no carriage return stands by itself.** Nothing
is written exactly for blank texts. Where every carriage return between the blanks at both ends has
a line feed behind it, and only there, each line of the text is a line of the comment, without
blanks at its end; no carriage return is written then. -/
theorem docComment_faithful_iff (text : String) (level : Nat) :
    let written := blockText "    " level (docComment (some text))
    (CodeWriter.runBlock { sink := {}, indent := "    ", level }
        (docComment (some text))).2.1.sink.held = written.toUTF8 ∧
      (written = "" ↔ Text.isBlankText text = true) ∧
      (written = linesText level (commentLines text) ↔
        Text.ReturnsPaired (Text.trim text.toList)) ∧
      (Text.ReturnsPaired (Text.trim text.toList) → '\r' ∉ written.toList) := by
  intro written
  have hiff := docComment_eq_commentLines_iff text level
  refine ⟨?_, docComment_blank_iff text level, hiff, fun hpaired => ?_⟩
  · have hrun := CodeWriter.runBlock_wrote { sink := {}, indent := "    ", level }
      (docComment (some text))
    have hheld := congrArg (fun run => run.2.held) hrun.sink
    exact hheld.symm.trans (by simp [Sink.write, written])
  · have hwritten : written = linesText level (commentLines text) := hiff.mpr hpaired
    rw [hwritten]
    exact return_not_mem_linesText text level

/-- Paragraphs with either line break, and blanks at the ends of lines. -/
theorem paragraphs_commented :
    let text := "\n  Starts the server. \r\n \t\r\n  Blocks until\nstopped.\r\n"
    Text.isBlankText text = false ∧ Text.ReturnsPaired (Text.trim text.toList) ∧
      commentLines text =
        ["/// Starts the server.", "///", "///   Blocks until", "/// stopped."] ∧
      blockText "    " 2 (docComment (some text)) = linesText 2 (commentLines text) ∧
      '\r' ∉ (blockText "    " 2 (docComment (some text))).toList := by
  intro text
  have hpaired : Text.ReturnsPaired (Text.trim text.toList) := by decide +kernel
  obtain ⟨-, -, hlines, hreturn⟩ := docComment_faithful_iff text 2
  exact ⟨by decide +kernel, hpaired, by decide +kernel, hlines.mpr hpaired, hreturn hpaired⟩

/-- A carriage return by itself stays in a line of the comment; at the end of a line it goes with
the blanks, and the empty line behind it is lost. -/
theorem loneReturn_stays_in_line :
    blockText "    " 0 (docComment (some "first\rsecond")) = "/// first\rsecond\n" ∧
      '\r' ∈ (blockText "    " 0 (docComment (some "first\rsecond"))).toList ∧
      commentLines "first\rsecond" = ["/// first", "/// second"] ∧
      blockText "    " 0 (docComment (some "first\r\r\nsecond")) = "/// first\n/// second\n" ∧
      commentLines "first\r\r\nsecond" = ["/// first", "///", "/// second"] := by
  decide +kernel

end CommandSpec
