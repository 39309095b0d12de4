import CommandSpec.Bindings.Generate
import CommandSpec.CommandLine.Arguments
import CommandSpec.CommandLine.Folder
import CommandSpec.Load
import CommandSpec.Tree.Dump
import CommandSpec.Tree.Json
import CommandSpec.Yaml.Block

/-! What the command line does: checks a specification, writes its bindings, or shows it
with references resolved. Files are reached through a `Host`, so that the same steps run
on a folder in memory. The texts that libraries write are a parameter: what is wrong with an input
and where, the lines of the log with their times, and the help. The variable `RUST_LOG` is taken
to be unset, so that a log is shown only to those who ask for one. -/
namespace CommandSpec.CommandLine

/-- What libraries have to say, and the program passes on. -/
structure LibraryTexts where
  /-- Why the bytes of a document do not decode, and at which place. -/
  undecoded : ByteArray → DecodeError → String
  /-- Why the bytes of a config do not decode, and at which place. -/
  undecodedConfig : ByteArray → DecodeError → String
  /-- Why a config that was opened cannot be read. -/
  unreadable : FileFault → String
  /-- The log of a run. -/
  log : String
  /-- The help, or what is wrong with the arguments. -/
  usage : String

def usageText : String :=
  "Usage: optionapi-gen [OPTIONS] <COMMAND>\n\n" ++
  "Commands:\n" ++
  "  validate  Parse, validate and resolve a specification\n" ++
  "  generate  Generate Rust bindings for a specification\n" ++
  "  inspect   Print the resolved specification\n" ++
  "  help      Print this message\n"

/-- Short texts: errors without their places, no log, and the same help for all sub-commands. -/
def LibraryTexts.short : LibraryTexts where
  undecoded _ e := e.message
  undecodedConfig _ e := e.message
  unreadable e := e.message
  log := ""
  usage := usageText

/-- Access to files and to the standard input, and to the texts of libraries. -/
structure Host (m : Type → Type) where
  /-- Opens what is at a path, which may be a folder (`none`). -/
  openFile : String → m (Except FileFault (Option ByteArray))
  readInput : m (Except FileFault ByteArray)
  writeFile : String → ByteArray → m (Except FileFault Unit)
  makeFolders : String → m (Except FileFault Unit)
  texts : LibraryTexts

structure Outcome where
  code : Nat
  output : String := ""
  errors : String := ""
  deriving DecidableEq, Inhabited

/-- An outcome whose errors stand below a log. -/
def Outcome.below (outcome : Outcome) (log : String) : Outcome :=
  { outcome with errors := log ++ outcome.errors }

/-- Whether a path stands for the standard input. -/
def isStandardInput (path : String) : Bool :=
  match slashParts path with
  | first :: rest => first == "-" && rest.all fun part => part == "" || part == "."
  | [] => false

/-- A path without the slashes and dots behind its last name. -/
private def trimPath (parts : List String) : List String :=
  match parts with
  | [] => []
  | first :: rest => first :: (rest.reverse.dropWhile fun p => p == "" || p == ".").reverse

/-- The folder part of a path; empty if there is none. -/
def parentPath (path : String) : String :=
  let parts := trimPath (slashParts path)
  match trimPath parts.dropLast with
  | [""] => if parts.length > 1 then "/" else ""
  | parts => "/".intercalate parts

variable {m : Type → Type} [Monad m]

/-- Why a document or a config is not there to work with, as the user reads it. -/
abbrev Failure := String

def describe (undecoded : DecodeError → String) (e : LoadError) : Failure :=
  e.fieldErrors.foldl (fun s error => s ++ "\n  " ++ error.text) (e.message undecoded)

/-- What a reader of an opened path gives; a folder is opened, but it cannot be read. -/
def readOpened (content : Option ByteArray) : Except String ByteArray :=
  match content with
  | some bytes => .ok bytes
  | none => .error FileFault.isFolder.message

def loadDocument (host : Host m) (input : String) : m (Except Failure Document) := do
  if isStandardInput input then
    match ← host.readInput with
    | .error e => return .error ("Failed to read stdin: " ++ e.message)
    | .ok bytes =>
      match String.fromUTF8? bytes with
      | none => return .error ("Failed to read stdin: " ++ notText)
      | some text => return (Document.parse text).mapError (describe (host.texts.undecoded bytes))
  else
    match ← host.openFile input with
    | .error e => return .error ("Failed to read '" ++ input ++ "': " ++ e.message)
    | .ok content =>
      return (Document.parseReader (readOpened content)).mapError
        (describe (host.texts.undecoded (content.getD .empty)))

/-- The config of a file, or the failure to read it. -/
def readConfig (texts : LibraryTexts) (content : Except FileFault (Option ByteArray)) :
    Except Failure Config :=
  match content with
  | .error e => .error ("I/O error: " ++ e.message)
  | .ok none => .error ("config error: " ++ texts.unreadable .isFolder)
  | .ok (some bytes) =>
    (Config.ofBytes bytes).mapError fun e => "config error: " ++ texts.undecodedConfig bytes e

def loadConfig (host : Host m) (request : GenerateRequest) : m (Except Failure Config) := do
  match request.configFile with
  | none => return .ok request.flags
  | some path =>
    let base := readConfig host.texts (← host.openFile path)
    return match base with
      | .ok base => .ok (base.mergedWith request.flags)
      | .error e => .error ("Failed to load config '" ++ path ++ "': " ++ e)

/-- Creates an empty file, and the folders it stands in. -/
def createFile (host : Host m) (path : String) : m (Except Failure Unit) := do
  let parent := parentPath path
  if !parent.isEmpty then
    match ← host.makeFolders parent with
    | .error e =>
      return .error ("Failed to create output directory '" ++ parent ++ "': " ++ e.message)
    | .ok () => pure ()
  match ← host.writeFile path .empty with
  | .error e => return .error ("Failed to create '" ++ path ++ "': " ++ e.message)
  | .ok () => return .ok ()

def runValidate (host : Host m) (input : String) : m (Except Failure String) := do
  match ← loadDocument host input with
  | .error e => return .error e
  | .ok d =>
    return .ok ("Validated '" ++ input ++ "': " ++
      toString d.commands.forest.count ++ " command(s), " ++
      toString d.options.length ++ " global option(s), " ++
      toString d.components.size ++ " component(s).\n")

/-- Writes bindings to a file, which is created before they are planned. -/
def writeBindings (host : Host m) (document : Document) (config : Config) (path : String) :
    m (Except Failure String) := do
  match ← createFile host path with
  | .error e => return .error e
  | .ok () =>
    match generate document config {} with
    | (.error e, _) => return .error e.message
    | (.ok written, sink) =>
      match ← host.writeFile path sink.held with
      | .error e => return .error ("Failed to write '" ++ path ++ "': " ++ e.message)
      | .ok () =>
        return .ok ("Wrote " ++ toString written ++ " bytes to '" ++ path ++ "'.\n")

def runGenerate (host : Host m) (request : GenerateRequest) : m (Except Failure String) := do
  match ← loadConfig host request with
  | .error e => return .error e
  | .ok config =>
    match ← loadDocument host request.input with
    | .error e => return .error e
    | .ok document =>
      match request.output with
      | some path => writeBindings host document config path
      | none => return (generateText document config).mapError GenerateError.message

/-- The text of a document in a format. -/
def Format.render (format : Format) (d : Document) : String :=
  match format with
  | json => d.toNode.toJson
  | yaml => d.toNode.toYaml

def runInspect (host : Host m) (input : String) (format : Format) :
    m (Except Failure String) := do
  match ← loadDocument host input with
  | .error e => return .error e
  | .ok d => return .ok (String.ofList (Text.trimEnd (format.render d).toList) ++ "\n")

def Request.run (host : Host m) : Request → m (Except Failure String)
  | validate input => runValidate host input
  | generate request => runGenerate host request
  | inspect input format => runInspect host input format

/-- How the result of a request is shown to the user. -/
def outcomeOf : Except Failure String → Outcome
  | .ok output => { code := 0, output }
  | .error e => { code := 1, errors := "error: " ++ e ++ "\n" }

/-- What is shown of the log of a run. -/
def LibraryTexts.logged (texts : LibraryTexts) (verbose : Bool) : String :=
  if verbose then texts.log else ""

def versionText : String := "optionapi-gen 0.1.0\n"

/-- How arguments that give no request are answered. -/
def refused (texts : LibraryTexts) (refusal : Refusal) : Outcome :=
  match refusal with
  | .help => { code := 0, output := texts.usage }
  | .version => { code := 0, output := versionText }
  | .misuse => { code := 2, errors := texts.usage }

/-- Runs the program with its arguments. -/
def run (host : Host m) (args : List String) : m Outcome := do
  match Invocation.ofArguments args with
  | .error refusal => return refused host.texts refusal
  | .ok invocation =>
    let result ← invocation.request.run host
    return (outcomeOf result).below (host.texts.logged invocation.verbose)

/-- Runs the program on a folder in memory. -/
def runIn (args : List String) (input : ByteArray) (folder : Folder)
    (texts : LibraryTexts := .short) : Outcome × Folder :=
  (run host args).run folder
where
  host : Host (StateM Folder) := {
    openFile := fun path => return (← get).open? path
    readInput := return .ok input
    writeFile := fun path content => change fun f => f.write path content
    makeFolders := fun path => change fun f => f.makeFolders path
    texts }
  change (f : Folder → Except FileFault Folder) : StateM Folder (Except FileFault Unit) := do
    match f (← get) with
    | .ok folder => set folder; return .ok ()
    | .error e => return .error e

end CommandSpec.CommandLine
