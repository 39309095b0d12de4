import CommandSpec.Proofs.LayoutLines

/-! Generated source reads back. The reader finds in the code lines of a module what its plan
has: the imports, the methods with their kinds and records, the records with their fields, and an
implementation of the trait that was declared. -/
namespace CommandSpec.SourceText

/-! ## Shapes of a plan -/

def recordShape (r : OptionRecord) : RecordShape :=
  ⟨r.typeName, r.parent.map parentField, r.fields.map typedField⟩

def methodShape (m : Method) : MethodShape := ⟨m.name, m.kind, m.options.map recordTypeName⟩

def signatureOf (m : Method) (mark : String) : Signature :=
  ⟨m.name, ⟨"", "&self"⟩ :: parameters m mark, Layout.resultType⟩

def moduleShape (config : Config) (p : Plan) : ModuleShape where
  imports := p.imports
  traitName := config.traitText
  declared := p.methods.map (signatureOf · "")
  records := p.records.map recordShape
  structName := config.structText
  implements := config.traitText ++ " for " ++ config.structText
  implemented := p.methods.map fun m => (signatureOf m "_", Layout.defaultBody m.kind)

theorem readName_framed (start finish s : String) :
    readName start finish (framed start finish s.toList) = some s := by
  unfold readName framed
  rw [enclosed_written]
  simp

/-! ## Records -/

theorem readField_fieldLine (t : TypedName) (h : Plain t.name.toList) :
    readField (fieldLine t) = some t := by
  unfold readField fieldLine framed
  rw [enclosed_written, Option.map_some, readTypedName_written _ _ (h.not_mem rfl)]
  simp

theorem typedFields_plain (r : OptionRecord) (h : r.Plain) :
    ∀ t ∈ typedFields r, Plain t.name.toList := by
  refine List.forall_mem_append.mpr ⟨List.forall_mem_map.mpr fun parent hp => ?_,
    List.forall_mem_map.mpr fun f hf => (h.fields f hf).1⟩
  exact (h.parent parent (Option.mem_toList.mp hp)).field

/-- The embedded record has the type of a record, and no field does. -/
theorem ofFields_typedFields (r : OptionRecord) (h : r.Plain) :
    RecordShape.ofFields r.typeName (typedFields r) = recordShape r := by
  obtain ⟨identifier, parent, fields⟩ := r
  cases parent with
  | some parent =>
    have hsuffix : "Options".toList.isSuffixOf parent.typeName.toList = true := by
      rw [List.isSuffixOf_iff_suffix, EmbeddedRecord.typeName, recordTypeName, String.toList_append]
      exact List.suffix_append _ _
    have hfields : typedFields ⟨identifier, some parent, fields⟩ =
        parentField parent :: fields.map typedField := rfl
    rw [hfields, RecordShape.ofFields]
    exact if_pos hsuffix
  | none =>
    cases fields with
    | nil => rfl
    | cons f rest =>
      have hsuffix := (h.fields f (List.mem_cons_self ..)).2.text.2
      have hfields : typedFields ⟨identifier, none, f :: rest⟩ =
          typedField f :: rest.map typedField := rfl
      rw [hfields, RecordShape.ofFields]
      exact if_neg (Bool.eq_false_iff.mp hsuffix)

theorem recordReader_recordLines (r : OptionRecord) (h : r.Plain) (rest : List (List Char)) :
    recordReader (recordLines r ++ rest) = some (recordShape r, rest) := by
  have hfields : many (next readField)
      ((typedFields r).map fieldLine ++ closeLine :: rest) =
        some (typedFields r, closeLine :: rest) := by
    have hmany := many_next_written readField id fieldLine (typedFields r) (closeLine :: rest)
      (fun t ht => readField_fieldLine t (typedFields_plain r h t ht))
      (next_eq_none readField closeLine rest rfl)
    rwa [List.map_id] at hmany
  have hlines : recordLines r ++ rest = framed "pub struct " " \x7b" r.typeName.toList ::
      ((typedFields r).map fieldLine ++ closeLine :: rest) := by
    simp [recordLines]
  rw [hlines]
  unfold recordReader
  refine (bind_next_eq _ _ _ _ _ (readName_framed _ _ r.typeName)).trans ?_
  refine (bind_eq_of_eq _ _ _ _ _ hfields).trans ?_
  refine (bind_next_eq readClose _ closeLine rest () rfl).trans ?_
  rw [ofFields_typedFields r h]
  rfl

/-! ## Methods -/

theorem dropWhile_typedName (name type : List Char) (h : Plain name) :
    (' ' :: (name ++ ": ".toList ++ type)).dropWhile (· == ' ') = name ++ ": ".toList ++ type := by
  cases name with
  | nil => rfl
  | cons c rest =>
    have hspace : ' ' ∉ c :: rest := h.not_mem rfl
    have hc : c ≠ ' ' := fun he => hspace (by simp [he])
    simp [hc]

theorem IsArgument.of_plain {cs : List Char} (h : Plain cs) : IsArgument cs := by
  refine IsArgument.of_all cs (List.all_eq_true.mpr fun c hc => ?_)
  have hname := h c hc
  by_contra hp
  simp only [passes, Bool.not_eq_true', List.contains_eq_mem, decide_eq_false_iff_not, not_not,
    List.mem_cons, List.not_mem_nil, or_false] at hp
  rcases hp with rfl | rfl | rfl | rfl | rfl <;> cases hname

theorem IsArgument.argumentText {t : TypedName} (hname : Plain t.name.toList)
    (htype : IsArgument t.type.toList) : IsArgument (argumentText t) := by
  have hspace : IsArgument " ".toList := IsArgument.of_all _ rfl
  have hcolon : IsArgument ": ".toList := IsArgument.of_all _ rfl
  exact hspace.append (((IsArgument.of_plain hname).append hcolon).append htype)

theorem parameters_readable (m : Method) (h : m.Plain) (mark : String) (hm : Plain mark.toList) :
    ∀ t ∈ parameters m mark, Plain t.name.toList ∧ IsArgument t.type.toList := by
  have hname (s : String) (hs : Plain s.toList) : Plain (mark ++ s).toList := by
    rw [String.toList_append]
    exact hm.append hs
  have hreference (s : String) (hs : Plain s.toList) : IsArgument ("&" ++ s).toList := by
    rw [String.toList_append]
    exact (IsArgument.of_all _ rfl).append (IsArgument.of_plain hs)
  unfold parameters
  refine List.forall_mem_cons.mpr ⟨?_, List.forall_mem_append.mpr ⟨?_, ?_⟩⟩
  · exact ⟨hname "ctx" (by decide), hreference "Context" (by decide)⟩
  · refine List.forall_mem_map.mpr fun identifier hi => ⟨hname "opts" (by decide), ?_⟩
    exact hreference _ (plain_recordTypeName _ (h.options _ (Option.mem_toList.mp hi)))
  · split
    · exact List.forall_mem_singleton.mpr ⟨hname "result" (by decide), IsArgument.resultType⟩
    · simp

theorem readSignature_signatureText (m : Method) (h : m.Plain) (mark : String)
    (hm : Plain mark.toList) :
    readSignature (signatureText m mark) = some (signatureOf m mark) := by
  have hreadable := parameters_readable m h mark hm
  have hself : IsArgument "&self".toList := IsArgument.of_all _ rfl
  have harguments : ∀ t ∈ "&self".toList :: (parameters m mark).map argumentText, IsArgument t :=
    List.forall_mem_cons.mpr ⟨hself, List.forall_mem_map.mpr fun t ht =>
      .argumentText (hreadable t ht).1 (hreadable t ht).2⟩
  have hparameters : ((parameters m mark).map argumentText).map
      (fun text => readTypedName (text.dropWhile (· == ' '))) = parameters m mark := by
    rw [List.map_map]
    refine (List.map_congr_left fun t ht => ?_).trans (List.map_id _)
    have hname := (hreadable t ht).1
    have hread := readTypedName_written t.name.toList t.type.toList (hname.not_mem rfl)
    simp only [Function.comp, argumentText, dropWhile_typedName _ _ hname, hread]
    simp
  unfold signatureText
  rw [readSignature_written _ _ _ _ (h.name.not_mem rfl) harguments, List.map_cons, hparameters]
  simp only [String.ofList_toList]
  rfl

theorem readMethod_framed (m : Method) (h : m.Plain) (mark finish : String)
    (hm : Plain mark.toList) :
    readMethod finish (framed "fn " finish (signatureText m mark)) = some (signatureOf m mark) := by
  unfold readMethod framed
  rw [enclosed_written]
  exact readSignature_signatureText m h mark hm

theorem bodyReader_bodyLines (m : Method) (h : m.Plain) (rest : List (List Char)) :
    bodyReader (bodyLines m ++ rest) =
      some ((signatureOf m "_", Layout.defaultBody m.kind), rest) := by
  have hheader := readMethod_framed m h "_" " \x7b" (by decide)
  unfold bodyReader bodyLines
  refine (bind_next_eq _ _ _ _ _ hheader).trans ?_
  refine (bind_next_eq some _ _ _ _ rfl).trans ?_
  refine (bind_next_eq readClose _ closeLine rest () rfl).trans ?_
  rw [String.ofList_toList]
  rfl

/-! ## The module -/

/-- The unit structure after the records begins like a record and ends otherwise. -/
theorem recordReader_unit (config : Config) (rest : List (List Char)) :
    recordReader (framed "pub struct " ";" config.structText.toList :: rest) = none := by
  have hend : ¬" \x7b".toList <:+ framed "pub struct " ";" config.structText.toList := by
    rintro ⟨before, hb⟩
    have hlast := congrArg List.getLast? hb
    rw [framed, List.getLast?_append_of_ne_nil _ (by decide),
      List.getLast?_append_of_ne_nil _ (by decide)] at hlast
    exact absurd hlast (by decide)
  refine bind_eq_none _ _ _ (next_eq_none _ _ _ ?_)
  unfold readName
  rw [enclosed_eq_none _ _ _ hend]
  rfl

theorem moduleReader_moduleLines (config : Config) (p : Plan) (hp : p.Plain)
    (others : List (List Char)) :
    moduleReader (moduleLines config p ++ others) = some (moduleShape config p, others) := by
  -- the lines left after each part, the last part first
  let implLine := framed "impl " " \x7b" (config.traitText ++ " for " ++ config.structText).toList
  let afterBodies := closeLine :: others
  let afterRecords := framed "pub struct " ";" config.structText.toList :: implLine ::
    (p.methods.flatMap bodyLines ++ afterBodies)
  let afterDeclared := closeLine :: (p.records.flatMap recordLines ++ afterRecords)
  let afterImports := framed "pub trait " " \x7b" config.traitText.toList ::
    (p.methods.map (fun m => framed "fn " ";" (signatureText m "")) ++ afterDeclared)
  have hlines : moduleLines config p ++ others =
      framed "pub mod " " \x7b" config.moduleText.toList ::
        (p.imports.map useLine ++ afterImports) := by
    simp [moduleLines, traitLines, implementationLines, afterImports, afterDeclared, afterRecords,
      afterBodies, implLine]
  have himports : many (next (readName "use " ";")) (p.imports.map useLine ++ afterImports) =
      some (p.imports, afterImports) := by
    have hmany := many_next_written (readName "use " ";") id useLine p.imports afterImports
      (fun path _ => readName_framed "use " ";" path) (next_eq_none _ _ _ rfl)
    rwa [List.map_id] at hmany
  have hdeclared := many_next_written (readMethod ";") (signatureOf · "")
    (fun m => framed "fn " ";" (signatureText m "")) p.methods afterDeclared
    (fun m hm => readMethod_framed m (hp.methods m hm) "" ";" (by decide))
    (next_eq_none _ _ _ rfl)
  have hrecords := many_written recordReader recordShape recordLines p.records afterRecords
    (fun r hr => ⟨List.cons_ne_nil _ _, recordReader_recordLines r (hp.records r hr)⟩)
    (recordReader_unit config _)
  have hbodies := many_written bodyReader
    (fun m => (signatureOf m "_", Layout.defaultBody m.kind)) bodyLines p.methods afterBodies
    (fun m hm => ⟨List.cons_ne_nil _ _, bodyReader_bodyLines m (hp.methods m hm)⟩)
    (bind_eq_none _ _ _ (next_eq_none _ _ _ rfl))
  rw [hlines]
  unfold moduleReader
  refine (bind_next_eq _ _ _ _ _ (readName_framed _ _ config.moduleText)).trans ?_
  refine (bind_eq_of_eq _ _ _ _ _ himports).trans ?_
  refine (bind_next_eq _ _ _ _ _ (readName_framed _ _ config.traitText)).trans ?_
  refine (bind_eq_of_eq _ _ _ _ _ hdeclared).trans ?_
  refine (bind_next_eq readClose _ closeLine _ () rfl).trans ?_
  refine (bind_eq_of_eq _ _ _ _ _ hrecords).trans ?_
  refine (bind_next_eq _ _ _ _ _ (readName_framed _ _ config.structText)).trans ?_
  refine (bind_next_eq _ _ _ _ _ (readName_framed _ _ _)).trans ?_
  refine (bind_eq_of_eq _ _ _ _ _ hbodies).trans ?_
  exact bind_next_eq readClose _ closeLine _ () rfl

theorem readModule_source (config : Config) (p : Plan) (hc : config.Plain) (hp : p.Plain) :
    readModule (p.source config) = some (moduleShape config p) := by
  obtain ⟨others, hothers⟩ := codeLines_source config p hc hp
  unfold readModule
  rw [hothers, moduleReader_moduleLines config p hp]
  rfl

/-! ## What is told from the source -/

theorem ofSource_signatureOf (m : Method) :
    MethodShape.ofSource (signatureOf m "") (Layout.defaultBody m.kind) = methodShape m := by
  obtain ⟨name, kind, options, description⟩ := m
  unfold MethodShape.ofSource signatureOf methodShape parameters
  cases options <;> cases kind <;> simp [Layout.defaultBody, String.toList_append]

theorem methods_moduleShape (config : Config) (p : Plan) :
    (moduleShape config p).methods = p.methods.map methodShape := by
  unfold ModuleShape.methods moduleShape
  rw [List.zipWith_map, List.zipWith_self]
  exact List.map_congr_left fun m _ => ofSource_signatureOf m

/-- A mark changes names of parameters only. -/
theorem types_signatureOf (m : Method) (mark : String) :
    (signatureOf m mark).types = (signatureOf m "").types := by
  unfold Signature.types signatureOf parameters
  cases m.options <;> cases m.kind <;> simp

theorem defaultBody_eq (kind : MethodKind) :
    Layout.defaultBody kind =
      if kind = .action then "Err(CommandError::Unimplemented)" else "Ok(())" := by
  cases kind <;> rfl

theorem build_of_generateText (document : Document) (config : Config) (text : String)
    (h : generateText document config = .ok text) :
    ∃ p, Plan.build document config = .ok p ∧ text = p.source config := by
  cases hp : Plan.build document config with
  | error e =>
    unfold generateText generate at h
    rw [hp] at h
    cases h
  | ok p =>
    rw [generateText_eq_source document config p hp] at h
    exact ⟨p, rfl, (Except.ok.inj h).symm⟩

theorem plain_of_build (document : Document) (config : Config) (p : Plan) (hc : config.Plain)
    (h : Plan.build document config = .ok p) : p.Plain := by
  obtain ⟨-, -, -, rfl⟩ := (Plan.build_eq_ok_iff ..).mp h
  exact document.topDownPlan_plain config hc

/-- **Generated source says what was planned.** Reading it gives the imports in ascending order,
the methods of the trait with their kinds and option records, and the records with what they
embed and their fields. The implementation has the methods of the trait with the same types in
the same order; hooks succeed, and actions report that nothing is implemented. So plans that
differ in any of these have different sources. -/
theorem generateText_reads_back (document : Document) (config : Config) (text : String)
    (hc : config.Plain) (h : generateText document config = .ok text) :
    ∃ p m, Plan.build document config = .ok p ∧ readModule text = some m ∧
      (m.imports = p.imports ∧ m.imports.Pairwise (· < ·)) ∧
      m.methods = p.methods.map methodShape ∧
      m.records = p.records.map recordShape ∧
      m.implements = m.traitName ++ " for " ++ m.structName ∧
      m.implemented.map (fun i => i.1.types) = m.declared.map Signature.types ∧
      m.implemented.map Prod.snd = p.methods.map (fun method =>
        if method.kind = .action then "Err(CommandError::Unimplemented)" else "Ok(())") ∧
      ∀ document' p', Plan.build document' config = .ok p' →
        (p'.imports, p'.methods.map methodShape, p'.records.map recordShape) ≠
          (p.imports, p.methods.map methodShape, p.records.map recordShape) →
        generateText document' config ≠ .ok text := by
  obtain ⟨p, hp, rfl⟩ := build_of_generateText document config text h
  have hread := readModule_source config p hc (plain_of_build document config p hc hp)
  have hascending : p.imports.Pairwise (· < ·) := by
    obtain ⟨-, -, -, rfl⟩ := (Plan.build_eq_ok_iff ..).mp hp
    exact insertNames_pairwise _ _ List.Pairwise.nil
  refine ⟨p, moduleShape config p, hp, hread, ⟨rfl, hascending⟩, methods_moduleShape config p, rfl,
    rfl, ?_, ?_, fun document' p' hp' hne h' => ?_⟩
  · simp only [moduleShape, List.map_map]
    exact List.map_congr_left fun m _ => types_signatureOf m "_"
  · simp only [moduleShape, List.map_map]
    exact List.map_congr_left fun m _ => defaultBody_eq m.kind
  · -- one text is read in one way, so both plans have its shapes
    obtain ⟨p'', hp'', hsource⟩ := build_of_generateText document' config _ h'
    obtain rfl : p' = p'' := Except.ok.inj (hp'.symm.trans hp'')
    have hread' := readModule_source config p' hc (plain_of_build document' config p' hc hp')
    rw [← hsource, hread] at hread'
    have hshape : moduleShape config p' = moduleShape config p := (Option.some.inj hread').symm
    have hmethods := congrArg ModuleShape.methods hshape
    rw [methods_moduleShape, methods_moduleShape] at hmethods
    have himports : p'.imports = p.imports := congrArg ModuleShape.imports hshape
    have hrecords : p'.records.map recordShape = p.records.map recordShape :=
      congrArg ModuleShape.records hshape
    exact hne (by rw [himports, hmethods, hrecords])

theorem sharedIdentifier_reads_back :
    Config.Plain {} ∧ ∃ text m, generateText sharedIdentifier {} = .ok text ∧
      readModule text = some m ∧
      m.imports = ["optionapi_runtime::CommandError", "optionapi_runtime::Context",
        "std::time::Duration"] ∧
      m.methods.take 3 = [⟨"hook_before", .hookBefore, some "AllCommandOptions"⟩,
        ⟨"hook_after", .hookAfter, some "AllCommandOptions"⟩,
        ⟨"a_hook_before", .hookBefore, some "AOptions"⟩] ∧
      m.records = [⟨"AllCommandOptions", none, [⟨"verbose", "Option<bool>"⟩]⟩,
        ⟨"AOptions", some ⟨"all_command", "AllCommandOptions"⟩, [⟨"wait", "Duration"⟩]⟩,
        ⟨"ABCOptions", some ⟨"a", "AOptions"⟩, [⟨"port", "Option<i64>"⟩]⟩] := by
  have hc : Config.Plain {} := ⟨by decide, by decide, by decide, by decide, by decide⟩
  have hbuild : Plan.build sharedIdentifier {} = .ok (sharedIdentifier.topDownPlan {}) :=
    eq_ok_of_toOption (by decide +kernel)
  have hgenerate := generateText_eq_source sharedIdentifier {} _ hbuild
  obtain ⟨p, m, hp, hm, ⟨himports, -⟩, hmethods, hrecords, -⟩ :=
    generateText_reads_back sharedIdentifier {} _ hc hgenerate
  obtain rfl : sharedIdentifier.topDownPlan {} = p := Except.ok.inj (hbuild.symm.trans hp)
  refine ⟨hc, _, m, hgenerate, hm, ?_, ?_, ?_⟩
  · rw [himports]
    decide +kernel
  · rw [hmethods]
    decide +kernel
  · rw [hrecords]
    decide +kernel

end CommandSpec.SourceText
