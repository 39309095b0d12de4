import CommandSpec.Proofs.FolderRuns
import CommandSpec.Proofs.SpelledRequests

/-! What a request to generate comes to. The config is loaded, then the document, then bindings
are planned; the first of these to fail is the error that is shown. Otherwise the output, printed
or left in a file, is the source generated from the document. What libraries say of an input that
does not decode, and the log, may be any text. -/
namespace CommandSpec.CommandLine

variable (texts : LibraryTexts)

/-! ## What is asked for -/

/-- The text of a specification comes through the standard input, or stands at a path. -/
def Supplies (input : ByteArray) (folder : Folder) (path text : String) : Prop :=
  if isStandardInput path then input = text.toUTF8
  else folder.open? path = .ok (some text.toUTF8)

/-- A file can be created at a path, with the folders it stands in. -/
def Creatable (folder : Folder) (path : String) : Prop :=
  ∃ created, createIn folder path = (.ok (), created)

/-- The names that a config can set. -/
def configNames : List (Config → Option String) :=
  [Config.moduleName, Config.traitName, Config.structName, Config.globalOptionsName,
    Config.runtimeCrate]

/-- Flags on top of a config file: each name is the flag if it is given and else the file's, and
either turns the table on. -/
structure Layered (flags base config : Config) : Prop where
  names : ∀ name ∈ configNames, name config = (name flags).or (name base)
  table : config.commandTable = (base.commandTable || flags.commandTable)

theorem layered_iff (flags base config : Config) :
    Layered flags base config ↔ config = base.mergedWith flags := by
  constructor
  · rintro ⟨hnames, htable⟩
    simp only [configNames, List.forall_mem_cons] at hnames
    obtain ⟨hmodule, htrait, hstruct, hglobal, hruntime, -⟩ := hnames
    cases config
    simp_all [Config.mergedWith]
  · rintro rfl
    refine ⟨?_, rfl⟩
    simp [configNames, Config.mergedWith]

/-! ## How failures are shown -/

def failed (message : String) : Outcome := { code := 1, errors := "error: " ++ message ++ "\n" }

/-- A line for each violation. -/
def violationLines (faults : List FieldError) : String :=
  String.join (faults.map fun fault => "\n  " ++ fault.text)

theorem describe_eq (undecoded : DecodeError → String) (e : LoadError) :
    describe undecoded e = e.message undecoded ++ violationLines e.fieldErrors := by
  have hlines (faults : List FieldError) (message : String) :
      faults.foldl (fun s fault => s ++ "\n  " ++ fault.text) message =
        message ++ violationLines faults := by
    induction faults generalizing message with
    | nil => simp [violationLines]
    | cons fault faults ih =>
      rw [List.foldl_cons, ih]
      simp [violationLines, String.append_assoc]
  exact hlines e.fieldErrors (e.message undecoded)

theorem documentIn_of_supplies (input : ByteArray) (folder : Folder) (path text : String)
    (h : Supplies input folder path text) :
    documentIn texts input folder path =
      (Document.parse text).mapError (describe (texts.undecoded text.toUTF8)) := by
  unfold Supplies at h
  unfold documentIn
  by_cases hstdin : isStandardInput path = true
  · rw [if_pos hstdin] at h ⊢
    simp only [h, Text.fromUTF8?_toUTF8]
  · rw [if_neg hstdin] at h ⊢
    have hparse : Document.parseReader (readOpened (some text.toUTF8)) = Document.parse text := by
      rw [readOpened, Document.parseReader_eq, Document.ofReader_toUTF8]
      rfl
    simp only [h, hparse]
    rfl

/-! ## The stages -/

/-- Why a text gives no document, as it is shown. -/
def loadFailure (text : String) (e : LoadError) : String :=
  e.message (texts.undecoded text.toUTF8) ++ violationLines e.fieldErrors

/-- What a request to generate comes to for the text of a specification, apart from the log. -/
def generateIn (folder : Folder) (request : GenerateRequest) (text : String) : Outcome × Folder :=
  match baseConfig texts folder request, Document.parse text with
  | .error e, _ => (failed e, folder)
  | .ok _, .error e => (failed (loadFailure texts text e), folder)
  | .ok base, .ok document =>
    (bindingsIn folder document (base.mergedWith request.flags) request.output).map outcomeOf id

/-- Only the text of the specification counts, however it comes. -/
theorem runIn_generate (args : List String) (input : ByteArray) (folder : Folder)
    (request : GenerateRequest) (verbose : Bool) (text : String)
    (hargs : Invocation.ofArguments args = .ok ⟨.generate request, verbose⟩)
    (htext : Supplies input folder request.input text) :
    runIn args input folder texts =
      (generateIn texts folder request text).map (·.below (texts.logged verbose)) id := by
  have hrun := runGenerate_run texts input folder request
  rw [documentIn_of_supplies texts input folder request.input text htext] at hrun
  rw [runIn_of_invocation texts args input folder _ ⟨.generate request, verbose⟩ _ hargs hrun]
  unfold generateIn
  cases baseConfig texts folder request with
  | error e => rfl
  | ok base =>
    cases Document.parse text with
    | error e =>
      exact congrArg (fun message => ((failed message).below _, folder)) (describe_eq _ e)
    | ok document => rfl

theorem bindingsIn_of_plan_error (folder : Folder) (document : Document) (config : Config)
    (output : Option String) (e : PlanError)
    (hcreatable : ∀ path ∈ output, Creatable folder path)
    (hplan : Plan.build document config = .error e) :
    (bindingsIn folder document config output).1 = .error e.message := by
  cases output with
  | none =>
    have htext : generateText document config = .error (.plan e) := by
      unfold generateText generate
      rw [hplan]
    unfold bindingsIn
    rw [htext]
    rfl
  | some path =>
    obtain ⟨created, hcreate⟩ := hcreatable path rfl
    exact congrArg Prod.fst (writeBindings_run_of_plan_error .short .empty folder created path
      document config e hcreate hplan)

/-- Where the generated source goes: to the standard output, or into the file of the output path,
and then its length is printed. -/
def Delivered (output : Option String) (source : String) (outcome : Outcome) (after : Folder) :
    Prop :=
  match output with
  | none => outcome = { code := 0, output := source }
  | some path => ∃ content, after.open? path = .ok (some content) ∧ content = source.toUTF8 ∧
      outcome = { code := 0, output :=
        "Wrote " ++ toString content.size ++ " bytes to '" ++ path ++ "'.\n" }

theorem bindingsIn_of_plan (folder : Folder) (document : Document) (config : Config)
    (output : Option String) (p : Plan)
    (hcreatable : ∀ path ∈ output, Creatable folder path)
    (hplan : Plan.build document config = .ok p) :
    ∃ result after, bindingsIn folder document config output = (.ok result, after) ∧
      Delivered output (p.source config) { code := 0, output := result } after := by
  cases output with
  | none =>
    refine ⟨p.source config, folder, ?_, rfl⟩
    unfold bindingsIn
    rw [generateText_eq_source document config p hplan]
    rfl
  | some path =>
    obtain ⟨created, hcreate⟩ := hcreatable path rfl
    obtain ⟨written, hwritten, hrun⟩ :=
      writeBindings_run_of_plan .short .empty folder created path document config p hcreate hplan
    exact ⟨_, written, hrun, _, (created.open?_write written path _ hwritten).1, rfl, rfl⟩

theorem Delivered.code_eq_zero {output : Option String} {source : String} {outcome : Outcome}
    {after : Folder} (h : Delivered output source outcome after) : outcome.code = 0 := by
  cases output with
  | none => exact congrArg Outcome.code h
  | some path =>
    obtain ⟨content, -, -, houtcome⟩ := h
    exact congrArg Outcome.code houtcome

/-- What a request to generate is to come to for the text of a specification: the first stage to
fail says why, and a run whose stages all succeed delivers the source. -/
structure Staged (folder : Folder) (request : GenerateRequest) (text : String) (outcome : Outcome)
    (after : Folder) : Prop where
  succeeds : outcome.code = 0 ↔ ∃ base config document p,
    baseConfig texts folder request = .ok base ∧ Layered request.flags base config ∧
    Document.parse text = .ok document ∧ Plan.build document config = .ok p
  configFails : ∀ e, baseConfig texts folder request = .error e → outcome = failed e
  parseFails : ∀ base e, baseConfig texts folder request = .ok base →
    Document.parse text = .error e → outcome = failed (loadFailure texts text e)
  violates : ∀ base decoded, baseConfig texts folder request = .ok base →
    Document.ofText text = .ok decoded → decoded.faults ≠ [] →
    outcome = failed ("failed to validate optionapi spec" ++ violationLines decoded.faults)
  planFails : ∀ base config document e, baseConfig texts folder request = .ok base →
    Layered request.flags base config → Document.parse text = .ok document →
    Plan.build document config = .error e → outcome = failed e.message
  delivers : ∀ base config document p, baseConfig texts folder request = .ok base →
    Layered request.flags base config → Document.parse text = .ok document →
    Plan.build document config = .ok p →
    ∃ source, generateText document config = .ok source ∧
      Delivered request.output source outcome after

section
variable (folder after : Folder) (request : GenerateRequest) (text : String) (outcome : Outcome)
  (hgenerated : generateIn texts folder request text = (outcome, after))
include hgenerated

theorem outcome_of_config_error (e : Failure)
    (hbase : baseConfig texts folder request = .error e) : outcome = failed e := by
  rw [generateIn, hbase] at hgenerated
  exact (Prod.mk.inj hgenerated).1.symm

theorem outcome_of_parse_error (base : Config) (e : LoadError)
    (hbase : baseConfig texts folder request = .ok base)
    (hparse : Document.parse text = .error e) :
    outcome = failed (loadFailure texts text e) := by
  rw [generateIn, hbase, hparse] at hgenerated
  exact (Prod.mk.inj hgenerated).1.symm

theorem outcome_of_plan_error (base : Config) (document : Document) (e : PlanError)
    (hcreatable : ∀ path ∈ request.output, Creatable folder path)
    (hbase : baseConfig texts folder request = .ok base)
    (hparse : Document.parse text = .ok document)
    (hplan : Plan.build document (base.mergedWith request.flags) = .error e) :
    outcome = failed e.message := by
  rw [generateIn, hbase, hparse] at hgenerated
  have hfailed := bindingsIn_of_plan_error folder document _ _ e hcreatable hplan
  have houtcome := congrArg Prod.fst hgenerated
  simp only [Prod.map_fst, hfailed] at houtcome
  exact houtcome.symm

theorem delivered_of_plan (base : Config) (document : Document) (p : Plan)
    (hcreatable : ∀ path ∈ request.output, Creatable folder path)
    (hbase : baseConfig texts folder request = .ok base)
    (hparse : Document.parse text = .ok document)
    (hplan : Plan.build document (base.mergedWith request.flags) = .ok p) :
    Delivered request.output (p.source (base.mergedWith request.flags)) outcome after := by
  rw [generateIn, hbase, hparse] at hgenerated
  obtain ⟨result, written, hwritten, hdelivered⟩ :=
    bindingsIn_of_plan folder document _ _ p hcreatable hplan
  simp only [hwritten] at hgenerated
  obtain ⟨rfl, rfl⟩ := Prod.mk.inj hgenerated
  exact hdelivered

end

/-- A decoded document that breaks bounds is refused with all of its violations. -/
theorem parse_of_faults (text : String) (decoded : Document)
    (htext : Document.ofText text = .ok decoded) (hfaults : decoded.faults ≠ []) :
    Document.parse text = .error (.validation decoded.faults) := by
  unfold Document.parse
  rw [htext]
  exact decoded.complete_of_faults hfaults

theorem generateIn_staged (folder after : Folder) (request : GenerateRequest) (text : String)
    (outcome : Outcome) (hcreatable : ∀ path ∈ request.output, Creatable folder path)
    (hgenerated : generateIn texts folder request text = (outcome, after)) :
    Staged texts folder request text outcome after := by
  have hconfig := outcome_of_config_error texts folder after request text outcome hgenerated
  have hload := outcome_of_parse_error texts folder after request text outcome hgenerated
  have hplanError := outcome_of_plan_error texts folder after request text outcome hgenerated
  have hplanned := delivered_of_plan texts folder after request text outcome hgenerated
  refine ⟨⟨?_, ?_⟩, hconfig, hload, ?_, ?_, ?_⟩
  · intro hcode
    cases hbase : baseConfig texts folder request with
    | error e => rw [hconfig e hbase] at hcode; cases hcode
    | ok base =>
      cases hparse : Document.parse text with
      | error e => rw [hload base e hbase hparse] at hcode; cases hcode
      | ok document =>
        cases hplan : Plan.build document (base.mergedWith request.flags) with
        | error e =>
          rw [hplanError base document e hcreatable hbase hparse hplan] at hcode
          cases hcode
        | ok p => exact ⟨base, _, document, p, rfl, (layered_iff ..).mpr rfl, rfl, hplan⟩
  · rintro ⟨base, config, document, p, hbase, hlayered, hparse, hplan⟩
    obtain rfl := (layered_iff ..).mp hlayered
    exact (hplanned base document p hcreatable hbase hparse hplan).code_eq_zero
  · intro base decoded hbase hdecoded hfaults
    exact hload base (.validation decoded.faults) hbase
      (parse_of_faults text decoded hdecoded hfaults)
  · intro base config document e hbase hlayered hparse hplan
    obtain rfl := (layered_iff ..).mp hlayered
    exact hplanError base document e hcreatable hbase hparse hplan
  · intro base config document p hbase hlayered hparse hplan
    obtain rfl := (layered_iff ..).mp hlayered
    exact ⟨_, generateText_eq_source document _ p hplan,
      hplanned base document p hcreatable hbase hparse hplan⟩

/-- **A request to generate goes through its stages.** It succeeds exactly if its config loads, the
text of its specification gives a document, and the document has a plan; then the source of the
document, under the flags on top of the config file, is delivered. Otherwise the first stage to
fail says why. A log that is asked for stands above the errors, and changes nothing else. A text
from the standard input gives the same as a file. -/
theorem generate_staged (request : GenerateRequest) (hpaths : request.HasPaths) :
    Invocation.ofArguments request.arguments = .ok { request := .generate request } ∧
    ∀ (texts : LibraryTexts) args verbose text input folder outcome after,
      Invocation.ofArguments args = .ok ⟨.generate request, verbose⟩ →
      Supplies input folder request.input text →
      (∀ path ∈ request.output, Creatable folder path) →
      runIn args input folder texts = (outcome, after) →
      ∃ shown : Outcome, outcome = shown.below (if verbose then texts.log else "") ∧
        Staged texts folder request text shown after ∧
        ∀ args' verbose' log, Invocation.ofArguments args' =
            .ok ⟨.generate { request with input := "-" }, verbose'⟩ →
          runIn args' text.toUTF8 folder { texts with log } =
            (shown.below (if verbose' then log else ""), after) := by
  refine ⟨request.ofArguments_arguments hpaths, ?_⟩
  intro texts args verbose text input folder outcome after hargs htext hcreatable hrun
  rw [runIn_generate texts args input folder request verbose text hargs htext] at hrun
  rcases hgenerated : generateIn texts folder request text with ⟨shown, folder'⟩
  rw [hgenerated] at hrun
  obtain ⟨rfl, rfl⟩ := Prod.mk.inj hrun
  have hstaged := generateIn_staged texts folder folder' request text shown hcreatable hgenerated
  refine ⟨shown, rfl, hstaged, ?_⟩
  intro args' verbose' log hargs'
  have hsame : generateIn { texts with log } folder { request with input := "-" } text =
      generateIn texts folder request text := rfl
  have hsupplied : Supplies text.toUTF8 folder "-" text := rfl
  rw [runIn_generate _ args' text.toUTF8 folder _ verbose' text hargs' hsupplied, hsame, hgenerated]
  rfl

def oneCommandText : String := "commands:\n  a: {}\n"

def oneCommand : Document where
  commands := ({} : Commands).insert "a" {}

def configuredFolder : Folder where
  files := [(["spec.yml"], oneCommandText.toUTF8),
    (["config.yml"], "module_name: from_config\nstruct_name: Stub\n".toUTF8)]

/-- A name stands in the config file and behind a flag, another one only in the file. -/
def configuredRequest : GenerateRequest where
  input := "spec.yml"
  output := some "out.rs"
  configFile := some "config.yml"
  flags := { moduleName := some "from_flag" }

def layeredNames : Config := { moduleName := some "from_flag", structName := some "Stub" }

/-- The module has the name behind the flag, and the structure that of the file. -/
def oneCommandSource : String :=
  "\n".intercalate [
    "// Code generated by optionapi-gen. DO NOT EDIT.",
    "",
    "pub mod from_flag \x7b",
    "    use optionapi_runtime::CommandError;",
    "    use optionapi_runtime::Context;",
    "",
    "    pub trait Interface \x7b",
    "        fn hook_before(&self, ctx: &Context) -> Result<(), CommandError>;",
    "        fn hook_after(&self, ctx: &Context, result: Result<(), CommandError>) " ++
      "-> Result<(), CommandError>;",
    "        fn a(&self, ctx: &Context) -> Result<(), CommandError>;",
    "    \x7d",
    "",
    "    /// Default [`Interface`]: hooks succeed and commands report " ++
      "`CommandError::Unimplemented`.",
    "    #[derive(Debug, Clone, Copy, Default)]",
    "    pub struct Stub;",
    "",
    "    impl Interface for Stub \x7b",
    "        fn hook_before(&self, _ctx: &Context) -> Result<(), CommandError> \x7b",
    "            Ok(())",
    "        \x7d",
    "",
    "        fn hook_after(&self, _ctx: &Context, _result: Result<(), CommandError>) " ++
      "-> Result<(), CommandError> \x7b",
    "            Ok(())",
    "        \x7d",
    "",
    "        fn a(&self, _ctx: &Context) -> Result<(), CommandError> \x7b",
    "            Err(CommandError::Unimplemented)",
    "        \x7d",
    "    \x7d",
    "\x7d",
    ""]

/-- The output file is new, and it holds this text. -/
theorem configuredRequest_delivers :
    Document.parse oneCommandText = .ok oneCommand ∧
      generateText oneCommand layeredNames = .ok oneCommandSource ∧
      ∃ after, runIn configuredRequest.arguments .empty configuredFolder .short =
          ({ code := 0, output :=
              "Wrote " ++ toString oneCommandSource.utf8ByteSize ++ " bytes to 'out.rs'.\n" },
            after) ∧
        after.open? "out.rs" = .ok (some oneCommandSource.toUTF8) := by
  have hsupplied : Supplies .empty configuredFolder "spec.yml" oneCommandText := by
    unfold Supplies
    decide +kernel
  have hcreatable : ∀ path ∈ some "out.rs", Creatable configuredFolder path := by
    rintro path ⟨⟩
    have hcreate : (createIn configuredFolder "out.rs").1 = .ok () := by decide +kernel
    cases hrun : createIn configuredFolder "out.rs" with
    | mk result created =>
      rw [hrun] at hcreate
      obtain rfl : result = .ok () := hcreate
      exact ⟨created, hrun⟩
  have hbase : baseConfig .short configuredFolder configuredRequest =
      .ok { moduleName := some "from_config", structName := some "Stub" } := by decide +kernel
  have hlayered : Layered configuredRequest.flags
      { moduleName := some "from_config", structName := some "Stub" } layeredNames :=
    (layered_iff ..).mpr (by decide)
  have hparse : Document.parse oneCommandText = .ok oneCommand :=
    eq_ok_of_toOption (by decide +kernel)
  have hplanned : (Plan.build oneCommand layeredNames).toOption.map (·.source layeredNames) =
      some oneCommandSource := by decide +kernel
  obtain ⟨p, hbuilt, hsource⟩ := Option.map_eq_some_iff.mp hplanned
  have hplan : Plan.build oneCommand layeredNames = .ok p := eq_ok_of_toOption hbuilt
  have htext : generateText oneCommand layeredNames = .ok oneCommandSource :=
    (generateText_eq_source oneCommand layeredNames p hplan).trans (congrArg Except.ok hsource)
  obtain ⟨hargs, hruns⟩ := generate_staged configuredRequest ⟨by decide, by decide, by decide⟩
  cases hrun : runIn configuredRequest.arguments .empty configuredFolder .short with
  | mk outcome after =>
    obtain ⟨shown, rfl, hstaged, -⟩ :=
      hruns .short _ false oneCommandText _ _ _ _ hargs hsupplied hcreatable hrun
    obtain ⟨source, hgenerated, content, hopen, rfl, rfl⟩ :=
      hstaged.delivers _ layeredNames oneCommand p hbase hlayered hparse hplan
    obtain rfl : oneCommandSource = source := Except.ok.inj (htext.symm.trans hgenerated)
    refine ⟨hparse, htext, after, ?_, hopen⟩
    simp [Outcome.below, String.append_assoc]

end CommandSpec.CommandLine
