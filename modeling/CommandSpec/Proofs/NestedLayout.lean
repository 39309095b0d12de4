import CommandSpec.Proofs.CommandTable
import CommandSpec.Proofs.Nesting
import CommandSpec.Proofs.ReadableSource

/-! The layout of a generated module. Each part of it nests, for any number of methods, records,
fields and table entries, so the lines between the one that opens the module and the one that closes
it stand inside of it (`generated_layout_nests`). -/
namespace CommandSpec.SourceText
open Layout

/-! ## Comments -/

theorem nests_docComment (text : Option String) : Nests (docComment text) := by
  cases text with
  | none => exact .nil
  | some text =>
    refine Nests.each (List.forall_mem_map.mpr fun line hl => ?_)
    have hend := trimEnd_newline line (lines_newline _ line hl)
    simp only
    split
    · exact .comment (s := "///") (by decide) (by decide) (d := '/') rfl (by decide)
    · rename_i hne
      have hne : Text.trimEnd line ≠ [] := fun h => hne (by rw [h]; rfl)
      obtain ⟨d, hd⟩ := Option.isSome_iff_exists.mp (List.getLast?_isSome.mpr hne)
      have htext : ("/// " ++ String.ofList (Text.trimEnd line)).toList =
          "/// ".toList ++ Text.trimEnd line := by simp [String.toList_append]
      refine .comment ?_ ?_ ?_ (getLast?_trimEnd line d hd)
      · rw [htext]
        exact (by decide : "//".toList <+: "/// ".toList).trans (List.prefix_append _ _)
      · rw [htext]
        exact List.not_mem_append (by decide) hend
      · rw [htext, List.getLast?_append_of_ne_nil _ hne]
        exact hd

/-! ## The trait and the records -/

theorem startsPlainly_signature (m : Method) (mark : String) :
    startsPlainly (signature m mark).toList = true := by
  rw [signature_toList]
  exact startsPlainly_append (by decide) _

theorem nests_trait (config : Config) (p : Plan) (hc : config.Plain) (hp : p.Plain) :
    Nests (traitDeclaration config p) := by
  refine Nests.enclosed (Nests.flatMap _ _ fun m hm => ?_)
    (.framed (by decide) (by decide) (hc.trait.not_mem rfl) (by decide) (by decide)) (by decide)
  have hline := signature_newline m (hp.methods m hm) "" (by decide)
  refine (nests_docComment m.description).append (.line ?_ ?_ ?_) <;> rw [String.toList_append]
  · exact startsPlainly_append (startsPlainly_signature m "") _
  · exact endsPlainly_append _ (by decide)
  · exact List.not_mem_append hline (by decide)

theorem nests_field (name type : String) (hname : Plain name.toList) (htype : '\n' ∉ type.toList) :
    Nests [.line ("pub " ++ name ++ ": " ++ type ++ ",")] := by
  have htext : "pub " ++ name ++ ": " ++ type ++ "," = "pub " ++ (name ++ ": " ++ type) ++ "," := by
    simp only [String.append_assoc]
  have hline : '\n' ∉ (name ++ ": " ++ type).toList := by
    simp [String.toList_append, hname.not_mem, htype, isNameChar]
  rw [htext]
  exact .framed (by decide) (by decide) hline (by decide) (by decide)

theorem nests_record (r : OptionRecord) (h : r.Plain) : Nests (record r) := by
  have htypeName : '\n' ∉ r.typeName.toList := (plain_recordTypeName _ h.identifier).not_mem rfl
  have hderive : Nests [.line "#[derive(Debug, Clone)]"] :=
    .line (by decide) (by decide) (by decide)
  have hfields : Nests (r.fields.flatMap fun f =>
      docComment f.description ++ [.line ("pub " ++ f.name ++ ": " ++ f.typeText ++ ",")]) := by
    refine Nests.flatMap _ _ fun f hf => ?_
    obtain ⟨hname, htype⟩ := h.fields f hf
    exact (nests_docComment f.description).append (nests_field f.name f.typeText hname htype.text.1)
  unfold record
  refine hderive.append (Nests.enclosed (Nests.append ?_ hfields)
    (.framed (by decide) (by decide) htypeName (by decide) (by decide)) (by decide))
  cases hp : r.parent with
  | none => exact .nil
  | some parent =>
    have hplain := h.parent parent hp
    exact nests_field parent.field parent.typeName hplain.field
      ((plain_recordTypeName _ hplain.identifier).not_mem rfl)

/-! ## The implementation -/

theorem nests_methodBody (m : Method) (h : m.Plain) : Nests (methodBody m) := by
  have hbody : Nests [.line (defaultBody m.kind)] := by
    cases m.kind <;> exact .line (by decide) (by decide) (by decide)
  have hline := signature_newline m h "_" (by decide)
  refine Nests.enclosed hbody ⟨?_, ?_, ?_⟩ (by decide) <;> rw [String.toList_append]
  · exact startsPlainly_append (startsPlainly_signature m "_") _
  · exact endsOpening_append _ (by decide)
  · exact List.not_mem_append hline (by decide)

theorem nests_methodBodies (methods : List Method) (h : ∀ m ∈ methods, m.Plain) :
    Nests (methodBodies methods) := by
  induction methods with
  | nil => exact .nil
  | cons m rest ih =>
    obtain ⟨hm, hrest⟩ := List.forall_mem_cons.mp h
    have hbody := nests_methodBody m hm
    cases rest with
    | nil => exact hbody
    | cons next more => exact hbody.append (Nests.blank.append (ih hrest))

theorem nests_implementation (config : Config) (p : Plan) (hc : config.Plain) (hp : p.Plain) :
    Nests (defaultImplementation config p) := by
  have htrait : '\n' ∉ config.traitText.toList := hc.trait.not_mem rfl
  have hstruct : '\n' ∉ config.structText.toList := hc.struct.not_mem rfl
  have hdoc : Nests [.line ("/// Default [\x60" ++ config.traitText ++
      "\x60]: hooks succeed and commands report \x60CommandError::Unimplemented\x60.")] := by
    refine .comment ?_ (by simp [String.toList_append, htrait]) (d := '.') ?_ (by decide)
    · rw [String.append_assoc, String.toList_append]
      exact (by decide : "//".toList <+: "/// Default [\x60".toList).trans (List.prefix_append _ _)
    · rw [String.toList_append, List.getLast?_append_of_ne_nil _ (by decide)]
      rfl
  have hderive : Nests [.line "#[derive(Debug, Clone, Copy, Default)]"] :=
    .line (by decide) (by decide) (by decide)
  have hunit : Nests [.spacedLine ("pub struct " ++ config.structText ++ ";")] :=
    .spacedLine (.framed (by decide) (by decide) hstruct (by decide) (by decide))
  have htext : "impl " ++ config.traitText ++ " for " ++ config.structText ++ " \x7b" =
      "impl " ++ (config.traitText ++ " for " ++ config.structText) ++ " \x7b" := by
    simp only [String.append_assoc]
  have himpl : Nests
      [.line ("impl " ++ config.traitText ++ " for " ++ config.structText ++ " \x7b"),
        .block (methodBodies p.methods), .line "\x7d"] := by
    rw [htext]
    exact (nests_methodBodies p.methods hp.methods).enclosed
      (.framed (by decide) (by decide) (by simp [String.toList_append, htrait, hstruct])
        (by decide) (by decide)) (by decide)
  exact hdoc.append <| hderive.append <| hunit.append himpl

/-! ## The command table -/

theorem nests_tableEntry (e : TableEntry) : Nests (tableEntry e) := by
  have htruth : '\n' ∉ (if e.hasSubcommands then "true" else "false").toList := by
    cases e.hasSubcommands <;> decide
  have hvalue (start : String) {value : String} (hstart : startsPlainly start.toList = true)
      (hline : '\n' ∉ start.toList) (h : '\n' ∉ value.toList) :
      Nests [.line (start ++ value ++ ",")] :=
    .framed hstart (by decide) h hline (by decide)
  have hpath : Nests [.line ("path: &[" ++ ", ".intercalate (e.path.map Text.quote) ++ "],")] :=
    .framed (by decide) (by decide) (lineEnd_not_mem_literals e.path) (by decide) (by decide)
  have hfields := hpath.append <|
    (hvalue "identifier: " (by decide) (by decide)
      (lineEnd_not_mem_quote e.identifier)).append <|
    (hvalue "method: " (by decide) (by decide)
      (lineEnd_not_mem_optionalLiteral e.method)).append <|
    (hvalue "options: " (by decide) (by decide)
      (lineEnd_not_mem_optionalLiteral (e.options.map recordTypeName))).append <|
    (hvalue "usage: " (by decide) (by decide)
      (lineEnd_not_mem_optionalLiteral e.usage)).append <|
    (hvalue "description: " (by decide) (by decide)
      (lineEnd_not_mem_optionalLiteral e.description)).append <|
    (hvalue "min_args: " (by decide) (by decide)
      (lineEnd_not_mem_toString e.minArgs.toNat)).append <|
    (hvalue "max_args: " (by decide) (by decide)
      (lineEnd_not_mem_toString e.maxArgs.toNat)).append <|
    hvalue "has_sub_commands: " (by decide) (by decide) htruth
  exact hfields.enclosed ⟨by decide, by decide, by decide⟩ (by decide)

theorem nests_tableConstant (table : List TableEntry) : Nests (tableConstant table) := by
  unfold tableConstant
  split
  · exact .line (by decide) (by decide) (by decide)
  · exact (Nests.flatMap _ _ fun e _ => nests_tableEntry e).enclosed
      ⟨by decide, by decide, by decide⟩ (by decide)

theorem nests_commandTable (p : Plan) : Nests (commandTable p) := by
  have hderive : Nests [.line "#[derive(Debug, Clone, Copy, PartialEq, Eq)]"] :=
    .line (by decide) (by decide) (by decide)
  have hfields := Nests.lines ["pub path: &'static [&'static str],",
    "pub identifier: &'static str,", "pub method: Option<&'static str>,",
    "pub options: Option<&'static str>,", "pub usage: Option<&'static str>,",
    "pub description: Option<&'static str>,", "pub min_args: u32,", "pub max_args: u32,",
    "pub has_sub_commands: bool,"] (by decide +kernel)
  have hstruct : Nests [.line ("pub struct " ++ tableEntryTypeName ++ " \x7b"), .block _,
      .spacedLine "\x7d"] :=
    hfields.enclosed_spaced ⟨by decide, by decide, by decide⟩ (by decide)
  exact (hderive.append hstruct).append (nests_tableConstant p.table)

/-! ## The module -/

theorem nests_moduleBody (config : Config) (p : Plan) (hc : config.Plain) (hp : p.Plain) :
    Nests (moduleBody config p) := by
  have himports : Nests (p.imports.map fun path => .line ("use " ++ path ++ ";")) := by
    refine Nests.each (List.forall_mem_map.mpr fun path hpath => ?_)
    exact .framed (by decide) (by decide) (hp.imports path hpath) (by decide) (by decide)
  have hrecords : Nests (p.records.flatMap fun r => record r ++ [.blank]) :=
    Nests.flatMap _ _ fun r hr => (nests_record r (hp.records r hr)).append .blank
  have htable : Nests (if config.commandTable then .blank :: commandTable p else []) := by
    split
    · exact Nests.blank.append (nests_commandTable p)
    · exact .nil
  exact (((((himports.append .blank).append (nests_trait config p hc hp)).append .blank).append
    hrecords).append (nests_implementation config p hc hp)).append htable

/-- The line that opens the module. -/
def moduleLine (config : Config) : String := "pub mod " ++ config.moduleText ++ " \x7b"

theorem moduleLine_opener (config : Config) (hc : config.Plain) : Opener (moduleLine config) :=
  .framed (by decide) (by decide) (hc.module.not_mem rfl) (by decide) (by decide)

/-- The lines up to the one that opens the module stand at depth zero. -/
theorem depths_moduleOpening (config : Config) (hc : config.Plain) (rest : List Char) :
    depths 0 (sourceLines (config.moduleOpening.toList ++ rest)) =
      (0, header.toList) :: (0, []) :: (0, (moduleLine config).toList) ::
        depths 1 (sourceLines rest) := by
  obtain ⟨-, hdepths⟩ := depths_opener (moduleLine_opener config hc) 0 rest
  have hheader : closesBlock header.toList = false ∧ opensBlock header.toList = false := by decide
  have hempty : closesBlock [] = false ∧ opensBlock [] = false := by decide
  have htext : config.moduleOpening.toList ++ rest = header.toList ++ '\n' ::
      ([] ++ '\n' :: ((lineText "    " 0 (moduleLine config)).toList ++ rest)) := by
    simp [Config.moduleOpening, moduleLine, blockText, Step.textAt, lineText, header, indentationAt]
  rw [htext, sourceLines_cons _ _ (by decide), sourceLines_cons _ _ List.not_mem_nil, depths,
    depths]
  simp only [hheader, hempty, Bool.false_eq_true, if_false]
  exact congrArg ((0, header.toList) :: (0, []) :: ·) hdepths

/-- **Layout follows nesting.** Every line of a generated source that is not empty is indented by
four spaces for each block open at it, and no line ends in a blank. No block is open up to the line
that opens the module; from there on one is at every line but the last, which closes the module. -/
theorem generated_layout_nests (document : Document) (config : Config) (text : String)
    (hc : config.Plain) (h : generateText document config = .ok text) :
    text.toList.getLast? = some '\n' ∧
      ∃ before inside, depths 0 (sourceLines text.toList) =
          before ++ (0, (moduleLine config).toList) :: (inside ++ [(0, ['\x7d'])]) ∧
        (∀ l ∈ before, l.1 = 0) ∧ (∀ l ∈ inside, 1 ≤ l.1) ∧
        ∀ l ∈ depths 0 (sourceLines text.toList), Placed l.1 l.2 := by
  obtain ⟨p, hp, rfl⟩ := build_of_generateText document config text h
  obtain ⟨inside, hinside, hbody⟩ :=
    nests_moduleBody config p hc (plain_of_build document config p hc hp) 1 "\x7d\n".toList
  have hend : depths (1 : Nat) (sourceLines "\x7d\n".toList) = [(0, ['\x7d'])] := by decide
  have htext : (p.source config).toList = config.moduleOpening.toList ++
      ((blockText "    " 1 (moduleBody config p)).toList ++ "\x7d\n".toList) := by
    rw [p.source_eq config, String.toList_append, String.toList_append]
  have hlines : depths 0 (sourceLines (p.source config).toList) =
      [(0, header.toList), (0, [])] ++
        (0, (moduleLine config).toList) :: (inside ++ [(0, ['\x7d'])]) := by
    have hbody : depths 1 (sourceLines _) = _ := hbody
    rw [htext, depths_moduleOpening config hc, hbody, hend]
    rfl
  refine ⟨?_, _, inside, hlines, by simp, fun l hl => (hinside l hl).1, ?_⟩
  · rw [htext, ← List.append_assoc, List.getLast?_append_of_ne_nil _ (by decide)]
    rfl
  · have hheader : Placed 0 header.toList := placed_of_getLast (by decide) rfl (by decide)
    have hclose : Placed 0 ['\x7d'] := placed_of_getLast (by decide) rfl (by decide)
    have hopen : Placed 0 (moduleLine config).toList :=
      (depths_opener (moduleLine_opener config hc) 0 []).1
    rw [hlines]
    refine List.forall_mem_append.mpr ⟨by simpa using ⟨hheader, placed_nil 0⟩, ?_⟩
    refine List.forall_mem_cons.mpr ⟨hopen, List.forall_mem_append.mpr ⟨?_, by simpa using hclose⟩⟩
    exact fun l hl => (hinside l hl).2

theorem sharedIdentifier_nests :
    Config.Plain {} ∧ ∃ text before inside, generateText sharedIdentifier {} = .ok text ∧
      text.toList.getLast? = some '\n' ∧
      depths 0 (sourceLines text.toList) =
        before ++ (0, "pub mod cli_stub \x7b".toList) :: (inside ++ [(0, ['\x7d'])]) ∧
      (∀ l ∈ before, l.1 = 0) ∧ (∀ l ∈ inside, 1 ≤ l.1) ∧
      ∀ l ∈ depths 0 (sourceLines text.toList), Placed l.1 l.2 := by
  have hc : Config.Plain {} := ⟨by decide, by decide, by decide, by decide, by decide⟩
  have hbuild : Plan.build sharedIdentifier {} = .ok (sharedIdentifier.topDownPlan {}) :=
    eq_ok_of_toOption (by decide +kernel)
  have hgenerate := generateText_eq_source sharedIdentifier {} _ hbuild
  have hmodule : moduleLine {} = "pub mod cli_stub \x7b" := by decide
  obtain ⟨hend, before, inside, hlines, hbefore, hinside, hplaced⟩ :=
    generated_layout_nests sharedIdentifier {} _ hc hgenerate
  rw [hmodule] at hlines
  exact ⟨hc, _, before, inside, hgenerate, hend, hlines, hbefore, hinside, hplaced⟩

end CommandSpec.SourceText
