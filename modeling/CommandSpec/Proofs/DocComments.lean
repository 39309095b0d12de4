import CommandSpec.Proofs.LayoutLines

/-! Source with its doc comments taken out. Every step of a layout ends its lines, so what two
layouts write outside doc comments can be compared step by step (`AgreesOutsideDocs`); a layout
agrees with that of the plan without descriptions. Nothing is assumed of the configured names:
they may hold line ends and comment marks. -/
namespace CommandSpec

/-! ## Plans without descriptions -/

def Method.bare (m : Method) : Method := { m with description := none }

def RecordField.bare (f : RecordField) : RecordField := { f with description := none }

def OptionRecord.bare (r : OptionRecord) : OptionRecord :=
  { r with fields := r.fields.map RecordField.bare }

/-- The plan without its descriptions and its command table. -/
def Plan.bare (p : Plan) : Plan where
  imports := p.imports
  methods := p.methods.map Method.bare
  records := p.records.map OptionRecord.bare
  table := []

namespace SourceText
open Layout

/-! ## Lines outside doc comments -/

/-- Whether the first characters behind the indentation begin a doc comment. -/
def isDocLine (line : List Char) : Bool := "///".toList.isPrefixOf (line.dropWhile (· == ' '))

/-- The lines that are left when those of doc comments are deleted. -/
def linesOutsideDocs (text : List Char) : List (List Char) :=
  (text.splitOn '\n').filter fun line => !isDocLine line

theorem linesOutsideDocs_append (text rest : List Char) :
    linesOutsideDocs (text ++ '\n' :: rest) = linesOutsideDocs text ++ linesOutsideDocs rest := by
  unfold linesOutsideDocs
  rw [List.splitOn_eq_splitOnP, List.splitOnP_append_cons _ _ (by simp), List.filter_append]
  rfl

theorem linesOutsideDocs_doc (line rest : List Char) (h : '\n' ∉ line)
    (hd : isDocLine line = true) :
    linesOutsideDocs (line ++ '\n' :: rest) = linesOutsideDocs rest := by
  unfold linesOutsideDocs
  rw [List.splitOn_append_cons_self_of_not_mem h, List.filter_cons_of_neg (by simp [hd])]

theorem isDocLine_indented (level : Nat) (line : List Char) :
    isDocLine ((indentationAt "    " level).toList ++ line) = isDocLine line := by
  unfold isDocLine
  rw [dropWhile_indentationAt]

/-! ## Steps that agree -/

/-- Both lists of steps leave the same lines outside doc comments, at every level and whatever
comes behind them. -/
def AgreesOutsideDocs (steps others : List Step) : Prop :=
  ∀ level rest rest', linesOutsideDocs rest = linesOutsideDocs rest' →
    linesOutsideDocs ((blockText "    " level steps).toList ++ rest) =
      linesOutsideDocs ((blockText "    " level others).toList ++ rest')

namespace AgreesOutsideDocs

theorem nil : AgreesOutsideDocs [] [] := fun _ _ _ h => h

theorem append {steps others more rest : List Step} (h : AgreesOutsideDocs steps others)
    (hm : AgreesOutsideDocs more rest) : AgreesOutsideDocs (steps ++ more) (others ++ rest) := by
  intro level text text' ht
  rw [blockText_append, blockText_append, String.toList_append, String.toList_append,
    List.append_assoc, List.append_assoc]
  exact h level _ _ (hm level _ _ ht)

theorem flatMap {α : Type} (steps others : α → List Step) (as : List α)
    (h : ∀ a ∈ as, AgreesOutsideDocs (steps a) (others a)) :
    AgreesOutsideDocs (as.flatMap steps) (as.flatMap others) := by
  induction as with
  | nil => exact nil
  | cons a as ih =>
    obtain ⟨ha, has⟩ := List.forall_mem_cons.mp h
    exact ha.append (ih has)

/-- Steps whose text ends a line agree with themselves. -/
theorem of_lineEnd (steps : List Step)
    (h : ∀ level, ∃ text, blockText "    " level steps = text ++ "\n") :
    AgreesOutsideDocs steps steps := by
  intro level rest rest' hrest
  obtain ⟨text, htext⟩ := h level
  have hlines (rest : List Char) :
      linesOutsideDocs ((blockText "    " level steps).toList ++ rest) =
        linesOutsideDocs text.toList ++ linesOutsideDocs rest := by
    rw [htext, String.toList_append, List.append_assoc]
    exact linesOutsideDocs_append _ rest
  rw [hlines, hlines, hrest]

theorem lineText_eq (level : Nat) (s : String) :
    ∃ text, lineText "    " level s = text ++ "\n" := by
  unfold lineText
  split
  · exact ⟨"", rfl⟩
  · exact ⟨_, rfl⟩

theorem line (s : String) : AgreesOutsideDocs [.line s] [.line s] :=
  of_lineEnd _ fun level => by simpa [blockText, Step.textAt] using lineText_eq level s

theorem blank : AgreesOutsideDocs [.blank] [.blank] :=
  of_lineEnd _ fun level => ⟨"", by simp [blockText, Step.textAt]⟩

theorem spacedLine (s : String) : AgreesOutsideDocs [.spacedLine s] [.spacedLine s] :=
  of_lineEnd _ fun level => ⟨lineText "    " level s, by simp [blockText, Step.textAt]⟩

theorem block {steps others : List Step} (h : AgreesOutsideDocs steps others) :
    AgreesOutsideDocs [.block steps] [.block others] := by
  intro level rest rest' hrest
  have hblock (steps : List Step) :
      blockText "    " level [.block steps] = blockText "    " (level + 1) steps := by
    simp [blockText, Step.textAt]
  rw [hblock, hblock]
  exact h (level + 1) rest rest' hrest

/-- A doc comment leaves nothing. -/
theorem doc (s : String) (h : '\n' ∉ s.toList) (hs : "///".toList <+: s.toList) :
    AgreesOutsideDocs [.line s] [] := by
  obtain ⟨cs, hcs⟩ := hs
  have hline (level : Nat) (rest : List Char) :
      (blockText "    " level [.line s]).toList ++ rest =
        ((indentationAt "    " level).toList ++ s.toList) ++ '\n' :: rest := by
    have hne : s.isEmpty = false := by
      rw [Bool.eq_false_iff, ne_eq, String.isEmpty_iff]
      rintro rfl
      cases hcs
    simp [blockText, Step.textAt, lineText, hne, String.toList_append]
  intro level rest rest' hrest
  have hspaces : '\n' ∉ (indentationAt "    " level).toList := fun hm =>
    absurd (indentationAt_spaces level _ hm) (by decide)
  rw [hline, linesOutsideDocs_doc _ rest (List.not_mem_append hspaces h), hrest]
  · rfl
  · rw [isDocLine_indented, ← hcs]
    rfl

theorem nothing (steps : List Step) (h : ∀ step ∈ steps, AgreesOutsideDocs [step] []) :
    AgreesOutsideDocs steps [] := by
  induction steps with
  | nil => exact nil
  | cons step rest ih =>
    obtain ⟨hstep, hrest⟩ := List.forall_mem_cons.mp h
    exact hstep.append (ih hrest)

end AgreesOutsideDocs

/-! ## Layouts -/

open AgreesOutsideDocs

/-- Whatever a description says, it stays in its comment. -/
theorem agrees_docComment (text : Option String) : AgreesOutsideDocs (docComment text) [] := by
  cases text with
  | none => exact nil
  | some text =>
    refine nothing _ (List.forall_mem_map.mpr fun line hl => ?_)
    have hend := trimEnd_newline line (lines_newline _ line hl)
    simp only
    split
    · exact doc "///" (by decide) (by decide)
    · refine doc _ ?_ ?_
      · simpa [String.toList_append] using hend
      · rw [String.toList_append]
        exact (by decide : "///".toList <+: "/// ".toList).trans (List.prefix_append _ _)

theorem agrees_traitDeclaration (config : Config) (p : Plan) :
    AgreesOutsideDocs (traitDeclaration config p) (traitDeclaration config p.bare) := by
  have hmethods : AgreesOutsideDocs
      (p.methods.flatMap fun m => docComment m.description ++ [.line (signature m "" ++ ";")])
      (p.bare.methods.flatMap fun m =>
        docComment m.description ++ [.line (signature m "" ++ ";")]) := by
    rw [Plan.bare, List.flatMap_map]
    refine flatMap _ _ _ fun m _ => ?_
    exact (agrees_docComment m.description).append (line (signature m "" ++ ";"))
  exact ((line _).append hmethods.block).append (line "\x7d")

theorem agrees_record (r : OptionRecord) : AgreesOutsideDocs (record r) (record r.bare) := by
  obtain ⟨identifier, parent, fields⟩ := r
  have hfields : AgreesOutsideDocs
      (fields.flatMap fun f =>
        docComment f.description ++ [.line ("pub " ++ f.name ++ ": " ++ f.typeText ++ ",")])
      ((fields.map RecordField.bare).flatMap fun f =>
        docComment f.description ++ [.line ("pub " ++ f.name ++ ": " ++ f.typeText ++ ",")]) := by
    rw [List.flatMap_map]
    refine flatMap _ _ _ fun f _ => ?_
    exact (agrees_docComment f.description).append (line _)
  cases parent with
  | none =>
    exact (((line _).append (line _)).append (nil.append hfields).block).append (line "\x7d")
  | some parent =>
    exact (((line _).append (line _)).append ((line _).append hfields).block).append (line "\x7d")

theorem agrees_methodBody (m : Method) : AgreesOutsideDocs (methodBody m) (methodBody m.bare) :=
  ((line _).append (line (defaultBody m.kind)).block).append (line "\x7d")

theorem agrees_methodBodies (methods : List Method) :
    AgreesOutsideDocs (methodBodies methods) (methodBodies (methods.map Method.bare)) := by
  induction methods with
  | nil => exact nil
  | cons m rest ih =>
    cases rest with
    | nil => exact agrees_methodBody m
    | cons next more => exact (agrees_methodBody m).append (blank.append ih)

theorem agrees_defaultImplementation (config : Config) (p : Plan) :
    AgreesOutsideDocs (defaultImplementation config p) (defaultImplementation config p.bare) :=
  (line _).append <| (line _).append <| (spacedLine _).append <| (line _).append <|
    (agrees_methodBodies p.methods).block.append (line "\x7d")

theorem agrees_module (config : Config) (p : Plan) (h : config.commandTable = false) :
    AgreesOutsideDocs (module config p) (module config p.bare) := by
  have himports : AgreesOutsideDocs (p.imports.map fun path => .line ("use " ++ path ++ ";"))
      (p.bare.imports.map fun path => .line ("use " ++ path ++ ";")) := by
    rw [Plan.bare, List.map_eq_flatMap]
    exact flatMap _ _ _ fun path _ => line _
  have hrecords : AgreesOutsideDocs (p.records.flatMap fun r => record r ++ [.blank])
      (p.bare.records.flatMap fun r => record r ++ [.blank]) := by
    rw [Plan.bare, List.flatMap_map]
    exact flatMap _ _ _ fun r _ => (agrees_record r).append blank
  have hbody : AgreesOutsideDocs (moduleBody config p) (moduleBody config p.bare) := by
    unfold moduleBody
    rw [h]
    exact (((((himports.append blank).append (agrees_traitDeclaration config p)).append
      blank).append hrecords).append (agrees_defaultImplementation config p)).append nil
  exact (spacedLine header).append <| (line _).append <| hbody.block.append (line "\x7d")

/-- Outside its doc comments, source does not depend on the descriptions in the plan. -/
theorem linesOutsideDocs_source (config : Config) (p : Plan) (h : config.commandTable = false) :
    linesOutsideDocs (p.source config).toList = linesOutsideDocs (p.bare.source config).toList := by
  have hmodule := agrees_module config p h 0 [] [] rfl
  rwa [List.append_nil, List.append_nil] at hmodule

end SourceText
end CommandSpec
