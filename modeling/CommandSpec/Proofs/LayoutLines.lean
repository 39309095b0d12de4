import CommandSpec.Proofs.PartialOutput
import CommandSpec.Proofs.PlanNames
import CommandSpec.Proofs.SourceReader

/-! The code lines of a generated module. A line is a fixed start, a text from the plan, and a
fixed end; descriptions become comments, of which no code line is left. The command table stands
behind the implementation and is not looked at. -/
namespace CommandSpec.SourceText
open Layout

/-- A text between a fixed start and a fixed end. -/
def framed (start finish : String) (cs : List Char) : List Char :=
  start.toList ++ cs ++ finish.toList

theorem renders_framed (start finish s : String)
    (hcode : ∀ cs, codeLine (start.toList ++ cs) = some (start.toList ++ cs))
    (hstart : '\n' ∉ start.toList) (hfinish : '\n' ∉ finish.toList) (hs : '\n' ∉ s.toList) :
    Renders [.line (start ++ s ++ finish)] [framed start finish s.toList] := by
  refine Renders.code _ _ ?_ ?_ ?_
  · rw [String.toList_append, String.toList_append]
    rfl
  · simp [framed, hstart, hfinish, hs]
  · unfold framed
    rw [List.append_assoc]
    exact hcode _

def closeLine : List Char := "\x7d".toList

theorem renders_close : Renders [.line "\x7d"] [closeLine] := Renders.line "\x7d" (by decide)

/-! ## Comments -/

theorem lines_newline (cs : List Char) : ∀ line ∈ Text.lines cs, '\n' ∉ line := by
  fun_induction Text.lines cs with
  | case1 => simp
  | case2 rest ih => exact List.forall_mem_cons.mpr ⟨List.not_mem_nil, ih⟩
  | case3 rest ih => exact List.forall_mem_cons.mpr ⟨List.not_mem_nil, ih⟩
  | case4 c rest hc => simpa using fun h => hc h.symm
  | case5 c rest hc _ line more hlines ih =>
    obtain ⟨hline, hmore⟩ := List.forall_mem_cons.mp (hlines ▸ ih)
    have hne : '\n' ≠ c := fun h => hc h.symm
    exact List.forall_mem_cons.mpr ⟨List.not_mem_cons_of_ne_of_not_mem hne hline, hmore⟩

theorem trimEnd_subset (line : List Char) : Text.trimEnd line ⊆ line := by
  intro c hm
  have hdropped := (List.dropWhile_sublist _).subset (List.mem_reverse.mp hm)
  exact List.mem_reverse.mp hdropped

theorem trimEnd_newline (line : List Char) (h : '\n' ∉ line) : '\n' ∉ Text.trimEnd line :=
  fun hm => h (trimEnd_subset line hm)

theorem getLast?_trimEnd (cs : List Char) :
    ∀ c ∈ (Text.trimEnd cs).getLast?, Text.isBlank c = false := by
  intro c hc
  unfold Text.trimEnd at hc
  rw [List.getLast?_reverse] at hc
  have hhead := List.head?_dropWhile_not Text.isBlank cs.reverse
  rw [hc] at hhead
  simpa using hhead

/-- Nothing of a description is code. -/
theorem renders_docComment (text : Option String) : Renders (docComment text) [] := by
  cases text with
  | none => exact Renders.nil
  | some text =>
    refine Renders.nothing _ (List.forall_mem_map.mpr fun line hl => ?_)
    have hend := trimEnd_newline line (lines_newline _ line hl)
    simp only
    split
    · exact Renders.comment "///" (by decide) (by decide)
    · refine Renders.comment _ ?_ ?_
      · simpa [String.toList_append] using hend
      · rw [String.toList_append]
        exact (by decide : "//".toList <+: "/// ".toList).trans (List.prefix_append _ _)

/-! ## Records -/

def parentField (parent : EmbeddedRecord) : TypedName := ⟨parent.field, parent.typeName⟩

def typedField (f : RecordField) : TypedName := ⟨f.name, f.typeText⟩

/-- The embedded record before the fields. -/
def typedFields (r : OptionRecord) : List TypedName :=
  r.parent.toList.map parentField ++ r.fields.map typedField

def fieldLine (t : TypedName) : List Char :=
  framed "pub " "," (t.name.toList ++ ": ".toList ++ t.type.toList)

def recordLines (r : OptionRecord) : List (List Char) :=
  framed "pub struct " " \x7b" r.typeName.toList :: ((typedFields r).map fieldLine ++ [closeLine])

theorem plain_recordTypeName (identifier : String) (h : Plain identifier.toList) :
    Plain (recordTypeName identifier).toList := by
  unfold recordTypeName
  rw [String.toList_append]
  exact h.append (by decide)

theorem renders_field (name type : String) (hname : Plain name.toList)
    (htype : '\n' ∉ type.toList) :
    Renders [.line ("pub " ++ name ++ ": " ++ type ++ ",")] [fieldLine ⟨name, type⟩] := by
  have htext : "pub " ++ name ++ ": " ++ type ++ "," = "pub " ++ (name ++ ": " ++ type) ++ "," := by
    simp only [String.append_assoc]
  have hline : '\n' ∉ (name ++ ": " ++ type).toList := by
    simp [String.toList_append, hname.not_mem, htype, isNameChar]
  have h := renders_framed "pub " "," _ (fun _ => rfl) (by decide) (by decide) hline
  rw [htext]
  simpa [fieldLine, String.toList_append] using h

theorem renders_record (r : OptionRecord) (h : r.Plain) :
    Renders (record r) (recordLines r) := by
  have htypeName : '\n' ∉ r.typeName.toList := (plain_recordTypeName _ h.identifier).not_mem rfl
  have hheader := renders_framed "pub struct " " \x7b" r.typeName (fun _ => rfl) (by decide)
    (by decide) htypeName
  have hderive : Renders [.line "#[derive(Debug, Clone)]"] [] := Renders.line _ (by decide)
  have hfields : Renders (r.fields.flatMap fun f =>
      docComment f.description ++ [.line ("pub " ++ f.name ++ ": " ++ f.typeText ++ ",")])
      ((r.fields.map typedField).map fieldLine) := by
    rw [List.map_map]
    refine Renders.flatMap_lines _ _ _ fun f hf => ?_
    obtain ⟨hname, htype⟩ := h.fields f hf
    exact (renders_docComment f.description).append
      (renders_field f.name f.typeText hname htype.text.1)
  unfold record recordLines typedFields
  rw [List.map_append]
  refine ((hderive.append hheader).append (Renders.append ?_ hfields).block).append renders_close
  cases hp : r.parent with
  | none => exact Renders.nil
  | some parent =>
    have hplain := h.parent parent hp
    exact renders_field parent.field parent.typeName hplain.field
      ((plain_recordTypeName _ hplain.identifier).not_mem rfl)

/-! ## Methods -/

/-- The parameters behind the receiver. -/
def parameters (m : Method) (mark : String) : List TypedName :=
  ⟨mark ++ "ctx", "&Context"⟩ ::
    (m.options.toList.map (fun identifier => ⟨mark ++ "opts", "&" ++ recordTypeName identifier⟩) ++
      if m.kind = .hookAfter then [⟨mark ++ "result", resultType⟩] else [])

def argumentText (t : TypedName) : List Char :=
  ' ' :: (t.name.toList ++ ": ".toList ++ t.type.toList)

/-- A signature from the name on. -/
def signatureText (m : Method) (mark : String) : List Char :=
  m.name.toList ++ '(' ::
    ([','].intercalate ("&self".toList :: (parameters m mark).map argumentText) ++ ')' ::
      (" -> ".toList ++ resultType.toList))

theorem signature_toList (m : Method) (mark : String) :
    (signature m mark).toList = "fn ".toList ++ signatureText m mark := by
  obtain ⟨name, kind, options, description⟩ := m
  unfold signature signatureText parameters
  cases options <;> cases kind <;> simp [argumentText, String.toList_append]

theorem signature_newline (m : Method) (h : m.Plain) (mark : String) (hm : Plain mark.toList) :
    '\n' ∉ (signature m mark).toList := by
  obtain ⟨name, kind, options, description⟩ := m
  have hname : '\n' ∉ name.toList := h.name.not_mem rfl
  have hmark : '\n' ∉ mark.toList := hm.not_mem rfl
  have hoptions : ∀ identifier ∈ options, '\n' ∉ (recordTypeName identifier).toList :=
    fun identifier hi => (plain_recordTypeName identifier (h.options identifier hi)).not_mem rfl
  unfold signature
  cases options with
  | none => cases kind <;> simp [String.toList_append, resultType, hname, hmark]
  | some identifier =>
    have hidentifier := hoptions identifier rfl
    cases kind <;> simp [String.toList_append, resultType, hname, hmark, hidentifier]

/-- A line that starts with a signature. -/
theorem renders_signature (m : Method) (h : m.Plain) (mark finish : String)
    (hm : Plain mark.toList) (hfinish : '\n' ∉ finish.toList) :
    Renders [.line (signature m mark ++ finish)] [framed "fn " finish (signatureText m mark)] := by
  have hline := signature_newline m h mark hm
  rw [signature_toList] at hline
  refine Renders.code _ _ ?_ ?_ rfl
  · rw [String.toList_append, signature_toList]
    rfl
  · exact List.not_mem_append hline hfinish

def traitLines (config : Config) (p : Plan) : List (List Char) :=
  framed "pub trait " " \x7b" config.traitText.toList ::
    (p.methods.map (fun m => framed "fn " ";" (signatureText m "")) ++ [closeLine])

theorem renders_trait (config : Config) (p : Plan) (hc : config.Plain) (hp : p.Plain) :
    Renders (traitDeclaration config p) (traitLines config p) := by
  have hheader := renders_framed "pub trait " " \x7b" config.traitText (fun _ => rfl) (by decide)
    (by decide) (hc.trait.not_mem rfl)
  have hmethods : Renders (p.methods.flatMap fun m =>
      docComment m.description ++ [.line (signature m "" ++ ";")])
      (p.methods.map fun m => framed "fn " ";" (signatureText m "")) := by
    refine Renders.flatMap_lines _ _ _ fun m hm => ?_
    exact (renders_docComment m.description).append
      (renders_signature m (hp.methods m hm) "" ";" (by decide) (by decide))
  exact (hheader.append hmethods.block).append renders_close

def bodyLines (m : Method) : List (List Char) :=
  [framed "fn " " \x7b" (signatureText m "_"), (defaultBody m.kind).toList, closeLine]

theorem renders_methodBody (m : Method) (h : m.Plain) : Renders (methodBody m) (bodyLines m) := by
  have hheader := renders_signature m h "_" " \x7b" (by decide) (by decide)
  have hbody : Renders [.line (defaultBody m.kind)] [(defaultBody m.kind).toList] := by
    cases m.kind <;> exact Renders.line _ (by decide)
  exact (hheader.append hbody.block).append renders_close

theorem renders_methodBodies (methods : List Method) (h : ∀ m ∈ methods, m.Plain) :
    Renders (methodBodies methods) (methods.flatMap bodyLines) := by
  induction methods with
  | nil => exact Renders.nil
  | cons m rest ih =>
    obtain ⟨hm, hrest⟩ := List.forall_mem_cons.mp h
    have hbody := renders_methodBody m hm
    cases rest with
    | nil => exact hbody
    | cons next more => exact hbody.append (Renders.blank.append (ih hrest))

def implementationLines (config : Config) (p : Plan) : List (List Char) :=
  framed "pub struct " ";" config.structText.toList ::
    framed "impl " " \x7b" (config.traitText ++ " for " ++ config.structText).toList ::
      (p.methods.flatMap bodyLines ++ [closeLine])

theorem renders_implementation (config : Config) (p : Plan) (hc : config.Plain) (hp : p.Plain) :
    Renders (defaultImplementation config p) (implementationLines config p) := by
  have htrait : '\n' ∉ config.traitText.toList := hc.trait.not_mem rfl
  have hstruct : '\n' ∉ config.structText.toList := hc.struct.not_mem rfl
  have hdoc : Renders [.line ("/// Default [\x60" ++ config.traitText ++
      "\x60]: hooks succeed and commands report \x60CommandError::Unimplemented\x60.")] [] := by
    refine Renders.comment _ (by simp [String.toList_append, htrait]) ?_
    rw [String.append_assoc, String.toList_append]
    exact (by decide : "//".toList <+: "/// Default [\x60".toList).trans (List.prefix_append _ _)
  have hderive : Renders [.line "#[derive(Debug, Clone, Copy, Default)]"] [] :=
    Renders.line _ (by decide)
  have hunit := (renders_framed "pub struct " ";" config.structText (fun _ => rfl) (by decide)
    (by decide) hstruct).spacedLine
  have himpl : Renders
      [.line ("impl " ++ config.traitText ++ " for " ++ config.structText ++ " \x7b")]
      [framed "impl " " \x7b" (config.traitText ++ " for " ++ config.structText).toList] := by
    have htext : "impl " ++ config.traitText ++ " for " ++ config.structText ++ " \x7b" =
        "impl " ++ (config.traitText ++ " for " ++ config.structText) ++ " \x7b" := by
      simp only [String.append_assoc]
    rw [htext]
    exact renders_framed "impl " " \x7b" _ (fun _ => rfl) (by decide) (by decide)
      (by simp [String.toList_append, htrait, hstruct])
  have hbodies := (renders_methodBodies p.methods hp.methods).block
  exact hdoc.append <| hderive.append <| hunit.append <| himpl.append <|
    hbodies.append renders_close

/-! ## The module -/

def useLine (path : String) : List Char := framed "use " ";" path.toList

/-- The code lines up to the end of the implementation. -/
def moduleLines (config : Config) (p : Plan) : List (List Char) :=
  framed "pub mod " " \x7b" config.moduleText.toList ::
    (p.imports.map useLine ++ (traitLines config p ++
      (p.records.flatMap recordLines ++ implementationLines config p)))

/-- The imports, the trait, the records and the implementation. -/
theorem renders_moduleFront (config : Config) (p : Plan) (hc : config.Plain) (hp : p.Plain) :
    Renders (p.imports.map (fun path => .line ("use " ++ path ++ ";")) ++ [.blank] ++
        traitDeclaration config p ++ [.blank] ++
        p.records.flatMap (fun r => record r ++ [.blank]) ++ defaultImplementation config p)
      (p.imports.map useLine ++ (traitLines config p ++
        (p.records.flatMap recordLines ++ implementationLines config p))) := by
  have himports : Renders (p.imports.map fun path => .line ("use " ++ path ++ ";"))
      (p.imports.map useLine) := by
    rw [List.map_eq_flatMap]
    refine Renders.flatMap_lines _ _ _ fun path hpath => ?_
    exact renders_framed "use " ";" path (fun _ => rfl) (by decide) (by decide)
      (hp.imports path hpath)
  have hrecords : Renders (p.records.flatMap fun r => record r ++ [.blank])
      (p.records.flatMap recordLines) := by
    refine Renders.flatMap _ _ _ fun r hr => ?_
    have hr := (renders_record r (hp.records r hr)).append Renders.blank
    rwa [List.append_nil] at hr
  have hall := himports.append <| Renders.blank.append <| (renders_trait config p hc hp).append <|
    Renders.blank.append <| hrecords.append (renders_implementation config p hc hp)
  simpa only [List.append_assoc, List.nil_append] using hall

theorem codeLines_source (config : Config) (p : Plan) (hc : config.Plain) (hp : p.Plain) :
    ∃ others, codeLines (p.source config).toList = moduleLines config p ++ others := by
  have hheader : Renders [.spacedLine header] [] :=
    (Renders.comment header (by decide) (by decide)).spacedLine
  have hmod := renders_framed "pub mod " " \x7b" config.moduleText (fun _ => rfl) (by decide)
    (by decide) (hc.module.not_mem rfl)
  -- the command table comes behind everything that is read, so its lines are left open
  let table : List Step := if config.commandTable then .blank :: commandTable p else []
  obtain ⟨others, hothers⟩ := (renders_moduleFront config p hc hp).block_append table 0
    (blockText "    " 0 [.line "\x7d"]).toList
  refine ⟨others, ?_⟩
  have hsource : (p.source config).toList =
      (blockText "    " 0 ([.spacedLine header] ++
        [.line ("pub mod " ++ config.moduleText ++ " \x7b")])).toList ++
      ((blockText "    " 0 [.block (moduleBody config p)]).toList ++
        (blockText "    " 0 [.line "\x7d"]).toList) := by
    rw [← String.toList_append, ← blockText_append, ← String.toList_append, ← blockText_append]
    rfl
  rw [hsource, hheader.append hmod 0]
  exact congrArg _ hothers

end CommandSpec.SourceText
