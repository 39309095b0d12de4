import CommandSpec.Bindings.Config

/-! Command line arguments. Flags and their values may stand anywhere behind the
sub-command; behind a lone `--` everything is a plain argument. -/
namespace CommandSpec.CommandLine

inductive Format where
  | json
  | yaml
  deriving DecidableEq, Inhabited

structure GenerateRequest where
  input : String
  output : Option String
  configFile : Option String
  /-- What the flags set; it goes before the config file. -/
  flags : Config
  deriving DecidableEq

inductive Request where
  | validate (input : String)
  | generate (request : GenerateRequest)
  | inspect (input : String) (format : Format)
  deriving DecidableEq

/-- A request, and whether the log of the run is shown. -/
structure Invocation where
  request : Request
  verbose : Bool := false
  deriving DecidableEq

/-- Why arguments give no request. -/
inductive Refusal where
  | help
  | version
  | misuse
  deriving DecidableEq

/-- What a flag takes: nothing, any text, a path, or the name of a format. -/
inductive FlagValue where
  | none
  | text
  | path
  | format
  deriving DecidableEq

structure Flag where
  long : String
  short : Option Char := none
  value : FlagValue := .none
  deriving DecidableEq

/-- The flags of a level; the program's version is known only outside of sub-commands. -/
structure Level where
  flags : List Flag
  hasVersion : Bool := false

def verboseFlag : Flag := { long := "verbose", short := some 'v' }

def topLevel : Level := { flags := [verboseFlag], hasVersion := true }

def validateLevel : Level := { flags := [verboseFlag] }

def generateLevel : Level where
  flags := [
    verboseFlag,
    { long := "output", short := some 'o', value := .path },
    { long := "config", value := .path },
    { long := "module-name", value := .text },
    { long := "trait-name", value := .text },
    { long := "struct-name", value := .text },
    { long := "global-options-name", value := .text },
    { long := "runtime-crate", value := .text },
    { long := "command-table" }]

def inspectLevel : Level where
  flags := [verboseFlag, { long := "format", value := .format }]

def format? (s : String) : Option Format :=
  if s == "json" then some .json else if s == "yaml" then some .yaml else none

/-- Whether a flag takes this value; a path is never empty. -/
def FlagValue.accepts (kind : FlagValue) (s : String) : Bool :=
  match kind with
  | none => false
  | text => true
  | path => !s.isEmpty
  | format => (format? s).isSome

/-- Arguments read so far. -/
structure Given where
  /-- Values by the long names of their flags; a flag that takes none has an empty one. -/
  values : List (String × String) := []
  /-- A flag whose value comes next. -/
  pending : Option Flag := none
  input : Option String := none
  deriving DecidableEq

namespace Given

def has (g : Given) (long : String) : Bool := (g.values.lookup long).isSome

/-- A flag stands at most once. -/
def put (g : Given) (flag : Flag) (value : String) : Except Refusal Given :=
  if g.has flag.long then .error .misuse
  else .ok { g with values := (flag.long, value) :: g.values, pending := none }

def putValue (g : Given) (flag : Flag) (value : String) : Except Refusal Given :=
  if flag.value.accepts value then g.put flag value else .error .misuse

/-- There is one plain argument, a path. -/
def putInput (g : Given) (s : String) : Except Refusal Given :=
  if g.input.isSome || s.isEmpty then .error .misuse else .ok { g with input := some s }

/-- A flag written with two dashes, its value perhaps behind an equals sign. -/
def takeLong (level : Level) (g : Given) (cs : List Char) : Except Refusal Given :=
  let name := String.ofList (cs.takeWhile (· != '='))
  let attached := match cs.dropWhile (· != '=') with
    | _ :: value => some (String.ofList value)
    | [] => none
  match level.flags.find? (·.long == name), attached with
  | some flag, none => if flag.value = .none then g.put flag "" else .ok { g with pending := flag }
  | some flag, some value => g.putValue flag value
  | none, none =>
    if name == "help" then .error .help
    else if name == "version" && level.hasVersion then .error .version
    else .error .misuse
  | none, some _ => .error .misuse

/-- Flags written behind one dash; the rest behind one that takes a value is its value. -/
def takeShort (level : Level) (g : Given) : List Char → Except Refusal Given
  | [] => .ok g
  | c :: rest =>
    match level.flags.find? (·.short == some c) with
    | some flag =>
      if flag.value = .none then do takeShort level (← g.put flag "") rest
      else
        match rest with
        | [] => .ok { g with pending := flag }
        | '=' :: value => g.putValue flag (String.ofList value)
        | value => g.putValue flag (String.ofList value)
    | none =>
      if c == 'h' then .error .help
      else if c == 'V' && level.hasVersion then .error .version
      else .error .misuse

/-- Reads the arguments of a sub-command. -/
def take (level : Level) (g : Given) : List String → Except Refusal Given
  | [] => if g.pending.isSome then .error .misuse else .ok g
  | arg :: rest =>
    match g.pending, arg.toList with
    | some flag, ['-'] => do take level (← g.putValue flag arg) rest
    | some _, '-' :: _ => .error .misuse
    | some flag, _ => do take level (← g.putValue flag arg) rest
    | none, ['-', '-'] => rest.foldlM putInput g
    | none, '-' :: '-' :: cs => do take level (← g.takeLong level cs) rest
    | none, '-' :: c :: cs => do take level (← g.takeShort level (c :: cs)) rest
    | none, _ => do take level (← g.putInput arg) rest

def request? (g : Given) (subcommand : String) : Option Request :=
  g.input.bind fun input =>
    match subcommand with
    | "validate" => some (.validate input)
    | "generate" =>
      some <| .generate {
        input
        output := g.values.lookup "output"
        configFile := g.values.lookup "config"
        flags := {
          moduleName := g.values.lookup "module-name"
          traitName := g.values.lookup "trait-name"
          structName := g.values.lookup "struct-name"
          globalOptionsName := g.values.lookup "global-options-name"
          runtimeCrate := g.values.lookup "runtime-crate"
          commandTable := g.has "command-table" } }
    | "inspect" =>
      some (.inspect input (((g.values.lookup "format").bind format?).getD .yaml))
    | _ => none

end Given

def level? (subcommand : String) : Option Level :=
  match subcommand with
  | "validate" => some validateLevel
  | "generate" => some generateLevel
  | "inspect" => some inspectLevel
  | _ => none

/-- The sub-command `help` takes the name of at most one sub-command. -/
def isHelpTopic : List String → Bool
  | [] => true
  | [name] => name == "help" || (level? name).isSome
  | _ => false

def parseSubcommand (name : String) (args : List String) : Except Refusal Invocation :=
  match level? name with
  | none => if name == "help" && isHelpTopic args then .error .help else .error .misuse
  | some level => do
    let given ← Given.take level {} args
    match given.request? name with
    | some request => return { request, verbose := given.has verboseFlag.long }
    | none => throw .misuse

/-- Reads flags up to the sub-command. -/
def parseFrom (g : Given) : List String → Except Refusal Invocation
  | [] => .error .misuse
  | arg :: rest =>
    match arg.toList with
    | ['-', '-'] => .error .misuse
    | '-' :: '-' :: cs => do parseFrom (← g.takeLong topLevel cs) rest
    | '-' :: c :: cs => do parseFrom (← g.takeShort topLevel (c :: cs)) rest
    | _ =>
      (parseSubcommand arg rest).map fun invocation =>
        { invocation with verbose := invocation.verbose || g.has verboseFlag.long }

def Invocation.ofArguments (args : List String) : Except Refusal Invocation := parseFrom {} args

def Request.ofArguments (args : List String) : Except Refusal Request :=
  (Invocation.ofArguments args).map Invocation.request

end CommandSpec.CommandLine
