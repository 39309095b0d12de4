import CommandSpec.Bindings.Layout
import CommandSpec.Proofs.Rendering
import Mathlib.Data.List.Basic

/-! The code lines of a rendered text. Lines are told apart at line ends and lose their
indentation; empty lines, comments and attributes are dropped. What is left of a step does not
depend on its level, so the lines of a run of steps are those of the steps one after the other
(`Renders.append`), whatever comes behind them. -/
namespace CommandSpec

/-- The line without its indentation, unless it is empty, a comment or an attribute. -/
def codeLine (line : List Char) : Option (List Char) :=
  match line.dropWhile (· == ' ') with
  | [] => none
  | '#' :: _ => none
  | '/' :: '/' :: _ => none
  | line => some line

/-- The lines that hold code, without their indentation. -/
def codeLines (text : List Char) : List (List Char) := (text.splitOn '\n').filterMap codeLine

theorem codeLines_cons (line rest : List Char) (h : '\n' ∉ line) :
    codeLines (line ++ '\n' :: rest) = (codeLine line).toList ++ codeLines rest := by
  unfold codeLines
  rw [List.splitOn_append_cons_self_of_not_mem h, List.filterMap_cons]
  cases codeLine line <;> rfl

theorem codeLines_lineEnd (rest : List Char) : codeLines ('\n' :: rest) = codeLines rest :=
  codeLines_cons [] rest List.not_mem_nil

theorem codeLine_comment (cs : List Char) : codeLine ("//".toList ++ cs) = none := rfl

/-! ## Indentation -/

theorem indentationAt_spaces (level : Nat) :
    ∀ c ∈ (indentationAt "    " level).toList, c = ' ' := by
  unfold indentationAt
  rw [String.toList_join]
  intro c hc
  obtain ⟨indent, hi, hc⟩ := List.mem_flatMap.mp hc
  obtain rfl := List.eq_of_mem_replicate hi
  exact List.eq_of_mem_replicate (n := 4) hc

theorem dropWhile_indentationAt (level : Nat) (line : List Char) :
    ((indentationAt "    " level).toList ++ line).dropWhile (· == ' ') =
      line.dropWhile (· == ' ') :=
  List.dropWhile_append_of_pos fun c hc => by simp [indentationAt_spaces level c hc]

theorem codeLine_indented (level : Nat) (line : List Char) :
    codeLine ((indentationAt "    " level).toList ++ line) = codeLine line := by
  unfold codeLine
  rw [dropWhile_indentationAt]

theorem codeLines_lineText (level : Nat) (s : String) (rest : List Char) (h : '\n' ∉ s.toList) :
    codeLines ((lineText "    " level s).toList ++ rest) =
      (codeLine s.toList).toList ++ codeLines rest := by
  unfold lineText
  by_cases hs : s.isEmpty = true
  · rw [if_pos hs, String.isEmpty_iff.mp hs]
    exact codeLines_lineEnd rest
  · have hspaces : '\n' ∉ (indentationAt "    " level).toList := fun hm =>
      absurd (indentationAt_spaces level _ hm) (by decide)
    have hline : '\n' ∉ (indentationAt "    " level).toList ++ s.toList := by simp [hspaces, h]
    rw [if_neg hs, String.toList_append, String.toList_append, List.append_assoc]
    refine (codeLines_cons _ rest hline).trans ?_
    rw [codeLine_indented]

theorem blockText_append (indent : String) (level : Nat) (steps more : List Step) :
    blockText indent level (steps ++ more) =
      blockText indent level steps ++ blockText indent level more := by
  induction steps with
  | nil => simp [blockText]
  | cons step rest ih => rw [List.cons_append, blockText, blockText, ih, String.append_assoc]

/-! ## The lines of steps -/

/-- The code lines of the steps, at every level and whatever comes behind them. -/
def Renders (steps : List Step) (lines : List (List Char)) : Prop :=
  ∀ level rest, codeLines ((blockText "    " level steps).toList ++ rest) = lines ++ codeLines rest

namespace Renders

theorem nil : Renders [] [] := fun _ _ => rfl

theorem append {steps more : List Step} {lines others : List (List Char)}
    (h : Renders steps lines) (hm : Renders more others) :
    Renders (steps ++ more) (lines ++ others) := by
  intro level rest
  rw [blockText_append, String.toList_append, List.append_assoc, h, hm, List.append_assoc]

theorem flatMap {α : Type} (steps : α → List Step) (lines : α → List (List Char)) (as : List α)
    (h : ∀ a ∈ as, Renders (steps a) (lines a)) :
    Renders (as.flatMap steps) (as.flatMap lines) := by
  induction as with
  | nil => exact nil
  | cons a as ih =>
    obtain ⟨ha, has⟩ := List.forall_mem_cons.mp h
    exact ha.append (ih has)

/-- Steps that leave one line for each item. -/
theorem flatMap_lines {α : Type} (steps : α → List Step) (line : α → List Char) (as : List α)
    (h : ∀ a ∈ as, Renders (steps a) [line a]) : Renders (as.flatMap steps) (as.map line) := by
  rw [List.map_eq_flatMap]
  exact flatMap steps (fun a => [line a]) as h

theorem nothing (steps : List Step) (h : ∀ step ∈ steps, Renders [step] []) : Renders steps [] := by
  induction steps with
  | nil => exact nil
  | cons step rest ih =>
    obtain ⟨hstep, hrest⟩ := List.forall_mem_cons.mp h
    have hboth : Renders ([step] ++ rest) ([] ++ []) := hstep.append (ih hrest)
    exact hboth

theorem block {steps : List Step} {lines : List (List Char)} (h : Renders steps lines) :
    Renders [.block steps] lines := by
  intro level rest
  have hblock : blockText "    " level [.block steps] = blockText "    " (level + 1) steps := by
    simp [blockText, Step.textAt]
  rw [hblock]
  exact h (level + 1) rest

theorem blank : Renders [.blank] [] := by
  intro level rest
  have hblank : blockText "    " level [.blank] = "\n" := by
    simp [blockText, Step.textAt]
  rw [hblank]
  exact codeLines_lineEnd rest

theorem line (s : String) (h : '\n' ∉ s.toList) : Renders [.line s] (codeLine s.toList).toList := by
  intro level rest
  have hline : blockText "    " level [.line s] = lineText "    " level s := by
    simp [blockText, Step.textAt]
  rw [hline]
  exact codeLines_lineText level s rest h

/-- A line of code as it stands. -/
theorem code (s : String) (cs : List Char) (htext : s.toList = cs) (h : '\n' ∉ cs)
    (hcode : codeLine cs = some cs) : Renders [.line s] [cs] := by
  subst htext
  have hline := line s h
  rwa [hcode] at hline

theorem comment (s : String) (h : '\n' ∉ s.toList) (hs : "//".toList <+: s.toList) :
    Renders [.line s] [] := by
  obtain ⟨cs, hcs⟩ := hs
  have hline := line s h
  rwa [← hcs, codeLine_comment] at hline

theorem spacedLine {s : String} {lines : List (List Char)} (h : Renders [.line s] lines) :
    Renders [.spacedLine s] lines := by
  intro level rest
  have hlines : blockText "    " level [.spacedLine s] =
      blockText "    " level ([.line s] ++ [.blank]) := by
    simp [blockText, Step.textAt]
  have hboth := h.append blank level rest
  rw [List.append_nil] at hboth
  rw [hlines]
  exact hboth

/-- A block that begins with steps whose lines are known. -/
theorem block_append {steps : List Step} {lines : List (List Char)} (h : Renders steps lines)
    (more : List Step) (level : Nat) (rest : List Char) :
    ∃ others, codeLines ((blockText "    " level [.block (steps ++ more)]).toList ++ rest) =
      lines ++ others := by
  have hblock : blockText "    " level [.block (steps ++ more)] =
      blockText "    " (level + 1) steps ++ blockText "    " (level + 1) more := by
    simp [blockText, Step.textAt, blockText_append]
  rw [hblock, String.toList_append, List.append_assoc]
  exact ⟨_, h (level + 1) _⟩

end Renders

end CommandSpec
