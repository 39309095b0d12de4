import CommandSpec.Proofs.FolderRuns

/-! What a failed run does to files. It writes nothing, but the output file is created before
planning: when planning fails, a file that stood at the output path is left empty. No other
failure touches a file, and no other file is touched. -/
namespace CommandSpec.CommandLine

variable (texts : LibraryTexts)

/-! ## Creating a file -/

theorem Folder.makeParent_files (folder made : Folder) (path : String)
    (h : folder.makeParent path = .ok made) : made.files = folder.files := by
  unfold makeParent at h
  split at h
  · cases h
    rfl
  · exact folder.makeFrom_files made _ _ h

/-- Where creating a file fails, at most folders were made. -/
theorem createIn_error_files (folder after : Folder) (path : String) (e : Failure)
    (h : createIn folder path = (.error e, after)) : after.files = folder.files := by
  unfold createIn at h
  cases hmade : folder.makeParent path with
  | error e' =>
    obtain ⟨-, rfl⟩ : _ ∧ folder = after := by simpa [hmade] using h
    rfl
  | ok made =>
    cases hfile : made.write path .empty with
    | error e' =>
      obtain ⟨-, rfl⟩ : _ ∧ made = after := by simpa [hmade, hfile] using h
      exact folder.makeParent_files made path hmade
    | ok created => simp [hmade, hfile] at h

/-- A created file is empty, and the other files are those of before. -/
theorem createIn_ok_files (folder created : Folder) (path : String)
    (h : createIn folder path = (.ok (), created)) :
    ∃ place, created.locate [] (pathParts path) = .ok place ∧
      ∀ other, created.file? other = if other = place then some .empty else folder.file? other := by
  obtain ⟨made, hmade, hfile⟩ := (createIn_eq_ok_iff folder created path).mp h
  obtain ⟨place, hplace, -, -, rfl⟩ := (made.write_eq_ok_iff created path .empty).mp hfile
  refine ⟨place, made.locate_put place [] place .empty _ hplace, fun other => ?_⟩
  rw [made.file?_put, Folder.file?, folder.makeParent_files made path hmade]
  rfl

/-- Where bindings cannot be written, at most folders were made, or the created file stays
without a plan. -/
theorem writeBindings_error_files (input : ByteArray) (folder after : Folder) (path : String)
    (document : Document) (config : Config) (e : Failure)
    (h : (writeBindings (runIn.host input texts) document config path).run folder =
      (.error e, after)) :
    after.files = folder.files ∨
      createIn folder path = (.ok (), after) ∧ ∃ e', Plan.build document config = .error e' := by
  rcases hcreate : createIn folder path with ⟨e' | ⟨⟩, created⟩
  · have hfailed := writeBindings_run_of_create_error texts input folder created path document
      config e' hcreate
    obtain ⟨-, rfl⟩ := Prod.mk.inj (hfailed.symm.trans h)
    exact .inl (createIn_error_files folder created path e' hcreate)
  · cases hplan : Plan.build document config with
    | ok p =>
      obtain ⟨written, -, hwritten⟩ :=
        writeBindings_run_of_plan texts input folder created path document config p hcreate hplan
      cases (Prod.mk.inj (hwritten.symm.trans h)).1
    | error e' =>
      have hfailed :=
        writeBindings_run_of_plan_error texts input folder created path document config e' hcreate
          hplan
      obtain ⟨-, rfl⟩ := Prod.mk.inj (hfailed.symm.trans h)
      exact .inr ⟨rfl, e', rfl⟩

/-! ## Failed runs -/

/-- Planning fails once everything before it succeeded, the output file at this place included.
The output path is followed in the folder where its own folders are made. -/
def EmptiedByPlanning (args : List String) (input : ByteArray) (folder : Folder)
    (place : List String) : Prop :=
  ∃ request base document e path created,
    Request.ofArguments args = .ok (.generate request) ∧
    baseConfig texts folder request = .ok base ∧
    documentIn texts input folder request.input = .ok document ∧
    Plan.build document (base.mergedWith request.flags) = .error e ∧
    request.output = some path ∧
    createIn folder path = (.ok (), created) ∧
    created.locate [] (pathParts path) = .ok place

theorem file?_of_emptied (args : List String) (input : ByteArray) (folder : Folder)
    (place : List String) (h : EmptiedByPlanning texts args input folder place) :
    (runIn args input folder texts).2.file? place = some .empty := by
  obtain ⟨request, base, document, e, path, created, hargs, hbase, hdocument, hplan, hpath,
    hcreate, hplace⟩ := h
  have hrun : (runGenerate (runIn.host input texts) request).run folder =
      (.error e.message, created) := by
    rw [runGenerate_run, hbase, hdocument, hpath]
    exact writeBindings_run_of_plan_error .short .empty folder created path document _ e hcreate
      hplan
  obtain ⟨verbose, hinvocation⟩ := exists_invocation hargs
  rw [runIn_of_invocation texts args input folder created _ _ hinvocation hrun]
  obtain ⟨place', hplace', hfiles⟩ := createIn_ok_files folder created path hcreate
  obtain rfl : place' = place := by simpa [hplace'] using hplace
  rw [hfiles, if_pos rfl]

/-- A failed request to generate changes a file only by creating its output file and then
failing to plan. -/
theorem file?_of_failed_generate (args : List String) (input : ByteArray) (folder after : Folder)
    (request : GenerateRequest) (place : List String) (e : Failure)
    (hargs : Request.ofArguments args = .ok (.generate request))
    (hrun : (runGenerate (runIn.host input texts) request).run folder = (.error e, after))
    (h : ¬EmptiedByPlanning texts args input folder place) :
    after.file? place = folder.file? place := by
  rw [runGenerate_run] at hrun
  cases hbase : baseConfig texts folder request with
  | error e' =>
    rw [hbase] at hrun
    cases hrun
    rfl
  | ok base =>
    cases hdocument : documentIn texts input folder request.input with
    | error e' =>
      rw [hbase, hdocument] at hrun
      cases hrun
      rfl
    | ok document =>
      rw [hbase, hdocument] at hrun
      cases hpath : request.output with
      | none =>
        rw [hpath] at hrun
        obtain ⟨-, rfl⟩ := Prod.mk.inj hrun
        rfl
      | some path =>
        rw [hpath] at hrun
        rcases writeBindings_error_files .short .empty folder after path document _ e hrun with
          hfiles | ⟨hcreate, e', hplan⟩
        · rw [Folder.file?, hfiles]
          rfl
        · obtain ⟨place', hplace', hfiles⟩ := createIn_ok_files folder after path hcreate
          have hother : place ≠ place' := by
            rintro rfl
            exact h ⟨request, base, document, e', path, after, hargs, hbase, hdocument, hplan,
              hpath, hcreate, hplace'⟩
          rw [hfiles, if_neg hother]

theorem file?_of_failed_run (args : List String) (input : ByteArray) (folder : Folder)
    (place : List String) (hcode : (runIn args input folder texts).1.code = 1)
    (h : ¬EmptiedByPlanning texts args input folder place) :
    (runIn args input folder texts).2.file? place = folder.file? place := by
  cases hargs : Invocation.ofArguments args with
  | error refusal => exact absurd hcode (runIn_of_refusal texts args input folder refusal hargs).1
  | ok invocation =>
    obtain ⟨request, verbose⟩ := invocation
    have hrequest : Request.ofArguments args = .ok request := by
      rw [Request.ofArguments, hargs]
      rfl
    cases hrun : (request.run (runIn.host input texts)).run folder with
    | mk result after =>
      rw [runIn_of_invocation texts args input folder after _ result hargs hrun] at hcode ⊢
      cases result with
      | ok output => cases hcode
      | error e =>
        cases request with
        | validate path =>
          have hkept := runValidate_run_folder texts input folder path
          exact congrArg (·.file? place) ((congrArg Prod.snd hrun).symm.trans hkept)
        | inspect path format =>
          have hkept := runInspect_run_folder texts input folder path format
          exact congrArg (·.file? place) ((congrArg Prod.snd hrun).symm.trans hkept)
        | generate request =>
          exact file?_of_failed_generate texts args input folder after request place e hrequest
            hrun h

/-- **A failed run keeps all files but an output file it fails to plan for.** Where planning does
not fail, or the output path names no file with content, every file is as before. -/
theorem failed_run_keeps_files_iff (args : List String) (input : ByteArray) (folder : Folder)
    (hcode : (runIn args input folder texts).1.code = 1) :
    (∀ place, ¬EmptiedByPlanning texts args input folder place →
      (runIn args input folder texts).2.file? place = folder.file? place) ∧
    ((∀ place content, folder.file? place = some content →
        (runIn args input folder texts).2.file? place = some content) ↔
      ∀ place content, EmptiedByPlanning texts args input folder place →
        folder.file? place = some content → content = .empty) := by
  have hsame := fun place => file?_of_failed_run texts args input folder place hcode
  have hemptied := file?_of_emptied texts args input folder
  refine ⟨hsame, fun h place content hplace hfile => ?_, fun h place content hfile => ?_⟩
  · have hkept := h place content hfile
    rw [hemptied place hplace] at hkept
    exact (Option.some.inj hkept).symm
  · by_cases hplace : EmptiedByPlanning texts args input folder place
    · rw [h place content hplace hfile, hemptied place hplace]
    · rw [hsame place hplace, hfile]

/-- A specification with an option of a type that there is not, beside a written file. -/
def unknownTypeFolder : Folder where
  files := [(["spec.yml"], "options:\n- name: x\n  type: foo\n".toUTF8),
    (["out.rs"], "old\n".toUTF8)]

def generateInto (output : String) : List String := ["generate", "spec.yml", "--output", output]

/-- A new output file is created and left empty; the files that were there stay. -/
theorem unknownType_keeps_files :
    (runIn (generateInto "new.rs") .empty unknownTypeFolder).1.code = 1 ∧
      ∀ place content, unknownTypeFolder.file? place = some content →
        (runIn (generateInto "new.rs") .empty unknownTypeFolder).2.file? place = some content := by
  have hcode : (runIn (generateInto "new.rs") .empty unknownTypeFolder).1.code = 1 := by
    decide +kernel
  have hnew (place : List String)
      (h : EmptiedByPlanning .short (generateInto "new.rs") .empty unknownTypeFolder place) :
      place = ["new.rs"] := by
    obtain ⟨request, -, -, -, path, created, hargs, -, -, -, hpath, -, hplace⟩ := h
    have hrequest : Request.ofArguments (generateInto "new.rs") =
        .ok (.generate ⟨"spec.yml", some "new.rs", none, {}⟩) := by decide +kernel
    obtain rfl : _ = request := by simpa [hrequest] using hargs
    obtain rfl : "new.rs" = path := by simpa using hpath
    have hparts : pathParts "new.rs" = ["new.rs"] := by decide +kernel
    rw [hparts] at hplace
    exact (Except.ok.inj hplace).symm
  refine ⟨hcode, ?_⟩
  apply (failed_run_keeps_files_iff _ _ _ _ hcode).2.mpr
  intro place content hplace hfile
  rw [hnew place hplace] at hfile
  cases hfile

/-- The output file is lost, though nothing was generated. -/
theorem unknownType_empties_output :
    (runIn (generateInto "out.rs") .empty unknownTypeFolder).1.code = 1 ∧
      ¬∀ place content, unknownTypeFolder.file? place = some content →
        (runIn (generateInto "out.rs") .empty unknownTypeFolder).2.file? place = some content := by
  refine ⟨by decide +kernel, fun h => ?_⟩
  have hkept := h ["out.rs"] "old\n".toUTF8 (by decide +kernel)
  have hlost : (runIn (generateInto "out.rs") .empty unknownTypeFolder).2.file? ["out.rs"] =
      some .empty := by decide +kernel
  rw [hlost] at hkept
  exact absurd hkept (by decide +kernel)

end CommandSpec.CommandLine
