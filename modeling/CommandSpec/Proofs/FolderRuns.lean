import CommandSpec.CommandLine.Run
import CommandSpec.Proofs.Folders
import CommandSpec.Proofs.Loading
import CommandSpec.Proofs.PartialOutput

/-! The program run on a folder in memory. Reading changes nothing; only `generate` with an output
path writes, and what it does is read off here: it makes the folders of the path, creates the
file, plans, and writes the source. -/
namespace CommandSpec.CommandLine

/-- One step of a run, and the steps after it. -/
theorem run_bind_of {σ α β : Type} {x : StateM σ α} {s s' : σ} {a : α} (h : x.run s = (a, s'))
    (next : α → StateM σ β) : (x >>= next).run s = (next a).run s' := by
  show (next (x.run s).1).run (x.run s).2 = (next a).run s'
  rw [h]

variable (texts : LibraryTexts)

/-! ## What is read -/

/-- The document of a run: what its input, a file or the standard input, is loaded as. -/
def documentIn (input : ByteArray) (folder : Folder) (path : String) : Except Failure Document :=
  if isStandardInput path then
    match String.fromUTF8? input with
    | none => .error ("Failed to read stdin: " ++ notText)
    | some text => (Document.parse text).mapError (describe (texts.undecoded input))
  else
    match folder.open? path with
    | .error e => .error ("Failed to read '" ++ path ++ "': " ++ e.message)
    | .ok content => (Document.parseReader (readOpened content)).mapError
        (describe (texts.undecoded (content.getD .empty)))

/-- What the config file of a request sets; without one, nothing is set. -/
def baseConfig (folder : Folder) (request : GenerateRequest) : Except Failure Config :=
  match request.configFile with
  | none => .ok {}
  | some path => (readConfig texts (folder.open? path)).mapError
      ("Failed to load config '" ++ path ++ "': " ++ ·)

theorem mergedWith_nothing (flags : Config) : ({} : Config).mergedWith flags = flags := by
  cases flags
  simp [Config.mergedWith]

theorem loadDocument_run (input : ByteArray) (folder : Folder) (path : String) :
    (loadDocument (runIn.host input texts) path).run folder =
      (documentIn texts input folder path, folder) := by
  unfold loadDocument documentIn
  cases isStandardInput path with
  | true =>
    cases htext : String.fromUTF8? input <;> simp [runIn.host, htext] <;> rfl
  | false =>
    cases hopen : folder.open? path <;> simp [runIn.host, StateT.run_bind, hopen] <;> rfl

theorem loadConfig_run (input : ByteArray) (folder : Folder) (request : GenerateRequest) :
    (loadConfig (runIn.host input texts) request).run folder =
      ((baseConfig texts folder request).map (·.mergedWith request.flags), folder) := by
  unfold loadConfig baseConfig
  cases request.configFile with
  | none => exact congrArg (fun config => (Except.ok config, folder)) (mergedWith_nothing _).symm
  | some path =>
    cases hbase : readConfig texts (folder.open? path) <;> simp [runIn.host, hbase] <;> rfl

/-! ## What is written -/

/-- Makes the folders that a path stands in. -/
def Folder.makeParent (folder : Folder) (path : String) : Except FileFault Folder :=
  if (parentPath path).isEmpty then .ok folder else folder.makeFolders (parentPath path)

/-- What creating an empty file comes to, and the folder after it. -/
def createIn (folder : Folder) (path : String) : Except Failure Unit × Folder :=
  match folder.makeParent path with
  | .error e =>
    (.error ("Failed to create output directory '" ++ parentPath path ++ "': " ++ e.message),
      folder)
  | .ok made =>
    match made.write path .empty with
    | .error e => (.error ("Failed to create '" ++ path ++ "': " ++ e.message), made)
    | .ok created => (.ok (), created)

theorem createIn_eq_ok_iff (folder created : Folder) (path : String) :
    createIn folder path = (.ok (), created) ↔
      ∃ made, folder.makeParent path = .ok made ∧ made.write path .empty = .ok created := by
  unfold createIn
  cases folder.makeParent path with
  | error e => simp
  | ok made => cases hfile : made.write path .empty <;> simp [hfile]

theorem change_run (f : Folder → Except FileFault Folder) (folder : Folder) :
    (runIn.change f).run folder = match f folder with
      | .ok changed => (.ok (), changed)
      | .error e => (.error e, folder) := by
  unfold runIn.change
  cases h : f folder <;> simp [StateT.run_bind, h] <;> rfl

theorem writeFile_run (input : ByteArray) (folder : Folder) (path : String)
    (content : ByteArray) :
    ((runIn.host input texts).writeFile path content).run folder =
      match folder.write path content with
      | .ok changed => (.ok (), changed)
      | .error e => (.error e, folder) := change_run _ folder

theorem makeFolders_run (input : ByteArray) (folder : Folder) (path : String) :
    ((runIn.host input texts).makeFolders path).run folder =
      match folder.makeFolders path with
      | .ok changed => (.ok (), changed)
      | .error e => (.error e, folder) := change_run _ folder

theorem createFile_run (input : ByteArray) (folder : Folder) (path : String) :
    (createFile (runIn.host input texts) path).run folder = createIn folder path := by
  unfold createFile createIn Folder.makeParent
  cases hparent : (parentPath path).isEmpty with
  | true =>
    simp only [hparent]
    show StateT.run ((runIn.host input texts).writeFile path .empty >>= _) folder = _
    rw [run_bind_of (writeFile_run texts input folder path .empty)]
    cases hfile : folder.write path .empty <;> simp only [↓reduceIte, hfile] <;> rfl
  | false =>
    simp only [hparent]
    have hmake := makeFolders_run texts input folder (parentPath path)
    cases hfolders : folder.makeFolders (parentPath path) with
    | error e =>
      rw [hfolders] at hmake
      exact run_bind_of hmake _
    | ok made =>
      rw [hfolders] at hmake
      refine (run_bind_of hmake _).trans ?_
      show StateT.run ((runIn.host input texts).writeFile path .empty >>= _) made = _
      rw [run_bind_of (writeFile_run texts input made path .empty)]
      cases hfile : made.write path .empty <;> simp [hfile] <;> rfl

/-- A created file is empty, and can be written. -/
theorem open?_of_createIn (folder created : Folder) (path : String)
    (h : createIn folder path = (.ok (), created)) :
    created.open? path = .ok (some .empty) ∧
      ∀ content, ∃ f, created.write path content = .ok f := by
  obtain ⟨made, -, hfile⟩ := (createIn_eq_ok_iff folder created path).mp h
  exact made.open?_write created path .empty hfile

/-- Bindings that cannot be planned leave the file that was created for them. -/
theorem writeBindings_run_of_plan_error (input : ByteArray) (folder created : Folder)
    (path : String) (document : Document) (config : Config) (e : PlanError)
    (hcreate : createIn folder path = (.ok (), created))
    (hplan : Plan.build document config = .error e) :
    (writeBindings (runIn.host input texts) document config path).run folder =
      (.error e.message, created) := by
  have hgenerate : generate document config {} = (.error (.plan e), {}) := by
    unfold generate
    rw [hplan]
  unfold writeBindings
  rw [run_bind_of ((createFile_run texts input folder path).trans hcreate)]
  simp only [hgenerate]
  rfl

/-- Planned bindings are written to the file in full. -/
theorem writeBindings_run_of_plan (input : ByteArray) (folder created : Folder)
    (path : String) (document : Document) (config : Config) (p : Plan)
    (hcreate : createIn folder path = (.ok (), created))
    (hplan : Plan.build document config = .ok p) :
    ∃ written, created.write path (p.source config).toUTF8 = .ok written ∧
      (writeBindings (runIn.host input texts) document config path).run folder =
        (.ok ("Wrote " ++ toString (p.source config).utf8ByteSize ++ " bytes to '" ++ path ++
          "'.\n"), written) := by
  obtain ⟨-, hwritable⟩ := open?_of_createIn folder created path hcreate
  obtain ⟨written, hwritten⟩ := hwritable (p.source config).toUTF8
  have hgenerate : generate document config {} =
      (.ok (p.source config).utf8ByteSize, ⟨(p.source config).toUTF8, none⟩) := by
    rw [generate_eq_write document config p hplan]
    simp [Sink.write]
  have hwrite := writeFile_run texts input created path (p.source config).toUTF8
  rw [hwritten] at hwrite
  refine ⟨written, hwritten, ?_⟩
  unfold writeBindings
  rw [run_bind_of ((createFile_run texts input folder path).trans hcreate)]
  simp only [hgenerate]
  rw [run_bind_of hwrite]
  rfl

theorem writeBindings_run_of_create_error (input : ByteArray) (folder folder' : Folder)
    (path : String) (document : Document) (config : Config) (e : Failure)
    (hcreate : createIn folder path = (.error e, folder')) :
    (writeBindings (runIn.host input texts) document config path).run folder =
      (.error e, folder') := by
  unfold writeBindings
  rw [run_bind_of ((createFile_run texts input folder path).trans hcreate)]
  rfl

/-! ## Whole runs -/

/-- What is generated from a document on a folder; the standard input has no part in it, and the
texts of libraries have none. -/
def bindingsIn (folder : Folder) (document : Document) (config : Config) :
    Option String → Except Failure String × Folder
  | none => ((generateText document config).mapError GenerateError.message, folder)
  | some path => (writeBindings (runIn.host .empty .short) document config path).run folder

theorem runGenerate_run (input : ByteArray) (folder : Folder) (request : GenerateRequest) :
    (runGenerate (runIn.host input texts) request).run folder =
      match baseConfig texts folder request, documentIn texts input folder request.input with
      | .error e, _ => (.error e, folder)
      | .ok _, .error e => (.error e, folder)
      | .ok base, .ok document =>
        bindingsIn folder document (base.mergedWith request.flags) request.output := by
  have hconfig := loadConfig_run texts input folder request
  have hdocument := loadDocument_run texts input folder request.input
  unfold runGenerate
  rw [run_bind_of hconfig]
  cases baseConfig texts folder request with
  | error e => rfl
  | ok base =>
    show StateT.run (loadDocument _ _ >>= _) folder = _
    rw [run_bind_of hdocument]
    cases documentIn texts input folder request.input with
    | error e => rfl
    | ok document => cases request.output <;> rfl

theorem runValidate_run_folder (input : ByteArray) (folder : Folder) (path : String) :
    ((runValidate (runIn.host input texts) path).run folder).2 = folder := by
  unfold runValidate
  rw [run_bind_of (loadDocument_run texts input folder path)]
  cases documentIn texts input folder path <;> rfl

theorem runInspect_run_folder (input : ByteArray) (folder : Folder) (path : String)
    (format : Format) :
    ((runInspect (runIn.host input texts) path format).run folder).2 = folder := by
  unfold runInspect
  rw [run_bind_of (loadDocument_run texts input folder path)]
  cases documentIn texts input folder path <;> rfl

theorem runIn_of_invocation (args : List String) (input : ByteArray) (folder folder' : Folder)
    (invocation : Invocation) (result : Except Failure String)
    (hargs : Invocation.ofArguments args = .ok invocation)
    (hrun : (invocation.request.run (runIn.host input texts)).run folder = (result, folder')) :
    runIn args input folder texts =
      ((outcomeOf result).below (texts.logged invocation.verbose), folder') := by
  unfold runIn run
  rw [hargs]
  exact run_bind_of hrun _

/-- A request is asked for with the log or without it. -/
theorem exists_invocation {args : List String} {request : Request}
    (h : Request.ofArguments args = .ok request) :
    ∃ verbose, Invocation.ofArguments args = .ok { request, verbose } := by
  unfold Request.ofArguments at h
  cases hargs : Invocation.ofArguments args with
  | error refusal =>
    rw [hargs] at h
    cases h
  | ok invocation =>
    rw [hargs] at h
    cases h
    exact ⟨invocation.verbose, rfl⟩

/-- Arguments that give no request leave everything as it is, and do not count as a failure. -/
theorem runIn_of_refusal (args : List String) (input : ByteArray) (folder : Folder)
    (refusal : Refusal) (hargs : Invocation.ofArguments args = .error refusal) :
    (runIn args input folder texts).1.code ≠ 1 ∧ (runIn args input folder texts).2 = folder := by
  unfold runIn run
  rw [hargs]
  refine ⟨?_, by cases refusal <;> rfl⟩
  intro hcode
  cases refusal <;> cases hcode

end CommandSpec.CommandLine
