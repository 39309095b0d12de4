import CommandSpec.Load
import CommandSpec.Proofs.EmptyEvents
import Mathlib.Data.List.TakeWhile

/-! The texts that stand for an empty document without being read. The shortcut looks at lines
that end in line feeds and trims blanks of all kinds off them, where a reader of the text knows
more line breaks, fewer blanks, and markers in the first column only. On texts that are laid out
conventionally the two agree (`blank_iff_noContent`). -/
namespace CommandSpec
open Yaml

/-- Whether the shortcut takes a line for one without content. -/
def isBlankLine (line : List Char) : Bool :=
  let line := Text.trim line
  line.isEmpty || line.head? == some '#' || line == "---".toList || line == "...".toList

theorem isBlankDocument_eq (text : String) :
    isBlankDocument text = (Text.lines text.toList).all isBlankLine := rfl

/-! ## Conventional texts -/

/-- Whether a line is one of the two document markers. -/
def isMarker (line : List Char) : Bool := line == "---".toList || line == "...".toList

/-- Whether a line is a document marker in the first column, with only blanks behind it. -/
def isBareMarker : List Char → Bool
  | '-' :: '-' :: '-' :: rest | '.' :: '.' :: '.' :: rest => rest.all isSpace
  | _ => false

/-- A line that is read alike with and without the shortcut. -/
structure ConventionalLine (line : List Char) : Prop where
  /-- No line breaks but line feeds, with or without a carriage return in front. -/
  breaks : ∀ c ∈ line, isBreak c = false
  /-- Indented by spaces and tabs only. -/
  indent : ∀ c ∈ line.takeWhile Text.isBlank, isSpace c = true
  directive : isDirectiveLine line = false
  /-- What looks like a marker to either reader is one, with nothing behind it. -/
  marker : isMarker (Text.trim line) = true ∨ isMarkerLine line = true → isBareMarker line = true

/-- A text of conventional lines without a byte order mark. -/
structure Conventional (text : String) : Prop where
  noOrderMark : text.toList.head? ≠ some byteOrderMark
  lines : ∀ line ∈ Text.lines text.toList, ConventionalLine line

instance (line : List Char) : Decidable (ConventionalLine line) :=
  decidable_of_iff (line.any isBreak = false ∧ (line.takeWhile Text.isBlank).all isSpace = true ∧
      isDirectiveLine line = false ∧
      (isMarker (Text.trim line) = true ∨ isMarkerLine line = true → isBareMarker line = true))
    ⟨fun ⟨breaks, indent, directive, marker⟩ =>
        ⟨by simpa using breaks, by simpa only [List.all_eq_true] using indent, directive, marker⟩,
      fun h => ⟨by simpa using h.breaks, List.all_eq_true.mpr h.indent, h.directive, h.marker⟩⟩

instance (text : String) : Decidable (Conventional text) :=
  decidable_of_iff (text.toList.head? ≠ some byteOrderMark ∧
      ∀ line ∈ Text.lines text.toList, ConventionalLine line)
    ⟨fun ⟨noOrderMark, lines⟩ => ⟨noOrderMark, lines⟩, fun h => ⟨h.noOrderMark, h.lines⟩⟩

/-! ## Lines -/

/-- Where lines hold no other line breaks, both readers see the same lines. -/
theorem lines_eq_yamlLines (cs : List Char)
    (h : ∀ line ∈ Text.lines cs, ∀ c ∈ line, isBreak c = false) :
    Text.lines cs = yamlLines cs := by
  induction cs using Text.lines.induct with
  | case1 => rfl
  | case2 rest ih =>
    have hbreak : isBreak '\n' = true := by decide
    rw [Text.lines, yamlLines.eq_3 _ _ (by simp), if_pos hbreak]
    exact congrArg _ (ih fun line hline => h line (List.mem_cons_of_mem _ hline))
  | case3 rest ih =>
    exact congrArg _ (ih fun line hline => h line (List.mem_cons_of_mem _ hline))
  | case4 c rest hfeed hreturn hlines ih =>
    rw [Text.lines.eq_4 c rest hfeed hreturn, hlines] at h ⊢
    have hc : isBreak c = false := h [c] (by simp) c (by simp)
    have hrest : yamlLines rest = [] := by rw [← ih (by simp [hlines]), hlines]
    rw [yamlLines.eq_3 c rest hreturn, hrest, if_neg (by simp [hc])]
  | case5 c rest hfeed hreturn line more hlines ih =>
    rw [Text.lines.eq_4 c rest hfeed hreturn, hlines] at h ⊢
    have hc : isBreak c = false := h (c :: line) (by simp) c (by simp)
    have hrest : yamlLines rest = line :: more := by
      rw [← hlines]
      refine (ih fun l hl d hd => ?_).symm
      rcases List.mem_cons.mp (hlines ▸ hl) with rfl | hl
      · exact h (c :: l) (by simp) d (by simp [hd])
      · exact h l (by simp [hl]) d hd
    rw [yamlLines.eq_3 c rest hreturn, hrest, if_neg (by simp [hc])]

theorem isBlank_of_isSpace {c : Char} (h : isSpace c = true) : Text.isBlank c = true := by
  obtain rfl | rfl : c = ' ' ∨ c = '\t' := by simpa [isSpace] using h
  all_goals decide

/-- What is dropped in front of a line that is indented by spaces and tabs. -/
theorem trimStart_of_indent {line : List Char}
    (h : ∀ c ∈ line.takeWhile Text.isBlank, isSpace c = true) :
    Text.trimStart line = line.dropWhile isSpace := by
  unfold Text.trimStart
  induction line with
  | nil => rfl
  | cons c rest ih =>
    by_cases hc : Text.isBlank c = true
    · rw [List.takeWhile_cons_of_pos hc, List.forall_mem_cons] at h
      rw [List.dropWhile_cons_of_pos hc, List.dropWhile_cons_of_pos h.1, ih h.2]
    · have hspace : ¬isSpace c = true := fun hs => hc (isBlank_of_isSpace hs)
      rw [List.dropWhile_cons_of_neg hc, List.dropWhile_cons_of_neg hspace]

theorem trimEnd_cons {c : Char} (hc : Text.isBlank c = false) (rest : List Char) :
    ∃ kept, Text.trimEnd (c :: rest) = c :: kept := by
  have hlast : [c].dropWhile Text.isBlank = [c] := List.dropWhile_cons_of_neg (by simp [hc])
  unfold Text.trimEnd
  rw [List.reverse_cons, List.dropWhile_append, hlast]
  split
  · exact ⟨[], rfl⟩
  · exact ⟨(rest.reverse.dropWhile Text.isBlank).reverse, by simp⟩

/-- Blanks behind a character that is none are trimmed off. -/
theorem trimEnd_append {kept blanks : List Char} (h : ∀ c ∈ blanks, Text.isBlank c = true) :
    Text.trimEnd (kept ++ blanks) = Text.trimEnd kept := by
  unfold Text.trimEnd
  rw [List.reverse_append, List.dropWhile_append_of_pos]
  simpa using h

namespace ConventionalLine

variable {line : List Char}

/-- Without its blanks a line is nothing or a comment to one reader if it is to the other. -/
theorem idle (h : ConventionalLine line) :
    ((Text.trim line).isEmpty || (Text.trim line).head? == some '#') = isIdle line := by
  have hhead := List.head?_dropWhile_not Text.isBlank line
  unfold Text.trim isIdle
  rw [← trimStart_of_indent h.indent]
  cases hrest : Text.trimStart line with
  | nil => rfl
  | cons c rest =>
    rw [show line.dropWhile Text.isBlank = c :: rest from hrest] at hhead
    obtain ⟨kept, hkept⟩ := trimEnd_cons hhead rest
    simp [hkept]

/-- A bare marker is one to both readers. -/
theorem marker_of_bare (h : isBareMarker line = true) :
    isMarker (Text.trim line) = true ∧ isMarkerLine line = true := by
  have hline {rest : List Char} (h : rest.all isSpace = true) :
      (atGap rest && isIdle rest) = true := by
    have hspace := List.all_eq_true.mp h
    have hdrop : rest.dropWhile isSpace = [] := List.dropWhile_eq_nil_iff.mpr hspace
    refine Bool.and_eq_true_iff.mpr ⟨?_, by rw [isIdle, hdrop]⟩
    cases rest with
    | nil => rfl
    | cons c rest => simp [atGap, hspace c (by simp)]
  have htrim {rest : List Char} (h : rest.all isSpace = true) {m : Char} (hm : m = '-' ∨ m = '.') :
      Text.trim (m :: m :: m :: rest) = [m, m, m] := by
    have hblanks : ∀ c ∈ rest, Text.isBlank c = true :=
      fun c hc => isBlank_of_isSpace (List.all_eq_true.mp h c hc)
    have hstart : Text.trimStart (m :: m :: m :: rest) = [m, m, m] ++ rest := by
      rcases hm with rfl | rfl <;> rfl
    rw [Text.trim, hstart, trimEnd_append hblanks]
    rcases hm with rfl | rfl <;> rfl
  unfold isBareMarker at h
  split at h
  · exact ⟨by rw [htrim h (.inl rfl)]; rfl, hline h⟩
  · exact ⟨by rw [htrim h (.inr rfl)]; rfl, hline h⟩
  · cases h

theorem marker_iff (h : ConventionalLine line) :
    isMarker (Text.trim line) = isMarkerLine line := by
  refine Bool.eq_iff_iff.mpr ⟨fun hm => ?_, fun hm => ?_⟩
  · exact (marker_of_bare (h.marker (.inl hm))).2
  · exact (marker_of_bare (h.marker (.inr hm))).1

theorem isBlankLine_eq (h : ConventionalLine line) : isBlankLine line = isVacantLine line := by
  have hblank : isBlankLine line = ((Text.trim line).isEmpty ||
      (Text.trim line).head? == some '#' || isMarker (Text.trim line)) := Bool.or_assoc ..
  rw [hblank, h.idle, h.marker_iff, isVacantLine, h.directive, Bool.or_false]

end ConventionalLine

/-! ## Texts -/

theorem blank_eq_noContent {text : String} (h : Conventional text) :
    isBlankDocument text = hasNoContent text.toList := by
  have hlines := lines_eq_yamlLines text.toList fun line hline => (h.lines line hline).breaks
  have hmark : (text.toList.head? == some byteOrderMark) = false :=
    beq_false_of_ne h.noOrderMark
  calc isBlankDocument text = (Text.lines text.toList).all isBlankLine := isBlankDocument_eq text
    _ = (Text.lines text.toList).all isVacantLine := by
        rw [Bool.eq_iff_iff, List.all_eq_true, List.all_eq_true]
        exact forall₂_congr fun line hline => by rw [(h.lines line hline).isBlankLine_eq]
    _ = hasNoContent text.toList := by
        rw [hasNoContent, hmark, if_neg Bool.false_ne_true, isVacant, hlines]

/-- **The shortcut loses no content of conventional texts.** It is taken just for those without
content, and a reader finds no node in them: what it gives is documents that are empty, and if they
can be decoded, the empty document. -/
theorem blank_iff_noContent (text : String) (h : Conventional text) :
    (isBlankDocument text = true ↔ hasNoContent text.toList = true) ∧
      (isBlankDocument text = true →
        (∀ e ∈ (events (tokens text.toList)).1, e.IsEmpty) ∧
        ∀ d, (Source.ofText text).decode Document.ofNode = .ok d → d = {}) := by
  have hiff := blank_eq_noContent h
  refine ⟨by rw [hiff], fun hblank => ?_⟩
  -- without a byte order mark, no content means that all lines are vacant
  have hvacant : isVacant text.toList = true := by
    rw [hiff, hasNoContent, if_neg (by simpa using h.noOrderMark)] at hblank
    exact hblank
  exact ⟨events_of_frames (tokens_of_vacant hvacant), fun d => Source.decode_of_vacant hvacant⟩

theorem commentedMarkers_blank :
    Conventional "# to come\r\n\n\t  # later\n---  \n...\n" ∧
      isBlankDocument "# to come\r\n\n\t  # later\n---  \n...\n" = true ∧
      hasNoContent "# to come\r\n\n\t  # later\n---  \n...\n".toList = true :=
  have h : Conventional "# to come\r\n\n\t  # later\n---  \n...\n" := by decide +kernel
  have hblank : isBlankDocument "# to come\r\n\n\t  # later\n---  \n...\n" = true := by
    decide +kernel
  ⟨h, hblank, (blank_iff_noContent _ h).1.mp hblank⟩

/-- A carriage return alone ends a comment, but not a line of the shortcut; blanks that do not
indent are trimmed off all the same; and directives and comments behind markers are no content. -/
theorem hiddenContent_blank :
    isBlankDocument "# note\rminArgs: 3\n" = true ∧
      hasNoContent "# note\rminArgs: 3\n".toList = false ∧
      Document.ofText "# note\rminArgs: 3\n" = .ok {} ∧
      (Source.ofText "# note\rminArgs: 3\n").decode Document.ofNode = .ok { minArgs := 3 } ∧
      (isBlankDocument "  ---\n" = true ∧ hasNoContent "  ---\n".toList = false) ∧
      (isBlankDocument "\u00a0\n" = true ∧ hasNoContent "\u00a0\n".toList = false) ∧
      (isBlankDocument "%YAML 1.1\n" = false ∧ hasNoContent "%YAML 1.1\n".toList = true) ∧
      (isBlankDocument "--- # start\n" = false ∧ hasNoContent "--- # start\n".toList = true) :=
  ⟨by decide +kernel, by decide +kernel, eq_ok_of_toOption (by decide +kernel),
    eq_ok_of_toOption (by decide +kernel), by decide +kernel, by decide +kernel, by decide +kernel,
    by decide +kernel⟩

end CommandSpec
