import CommandSpec.Spec.Document
import CommandSpec.Spec.Walk
import CommandSpec.Bindings.Config
import CommandSpec.Bindings.FieldType
import CommandSpec.Bindings.Naming
import CommandSpec.Text.Blank

/-! What will be generated for a document: every name, signature, option record and
import, decided before any text is written. A command that declares options gets a
record of its own, which embeds the record of its nearest ancestor that has one; a
command without options uses that ancestor's record. -/
namespace CommandSpec
open Naming

/-- One field of an option record. -/
structure RecordField where
  name : String
  /-- The option's name as the specification writes it. -/
  optionName : String
  typeText : String
  description : Option String
  deriving DecidableEq, Inhabited

def recordTypeName (identifier : String) : String := identifier ++ "Options"

/-- A record held by a descendant's record, and the field that holds it. -/
structure EmbeddedRecord where
  identifier : String
  field : String
  deriving DecidableEq, Inhabited

def EmbeddedRecord.typeName (r : EmbeddedRecord) : String := recordTypeName r.identifier

structure OptionRecord where
  identifier : String
  /-- The ancestor's record, which comes before the fields. -/
  parent : Option EmbeddedRecord
  fields : List RecordField
  deriving DecidableEq, Inhabited

def OptionRecord.typeName (r : OptionRecord) : String := recordTypeName r.identifier

inductive MethodKind where
  | hookBefore
  | hookAfter
  | action
  deriving DecidableEq, Inhabited

structure Method where
  name : String
  kind : MethodKind
  /-- The identifier of the record passed to the method. -/
  options : Option String
  description : Option String
  deriving DecidableEq, Inhabited

/-- The row of one command in the command table. -/
structure TableEntry where
  path : List String
  identifier : String
  /-- The action of a leaf; branches have none. -/
  method : Option String
  options : Option String
  usage : Option String
  description : Option String
  minArgs : UInt32
  maxArgs : UInt32
  hasSubcommands : Bool
  deriving DecidableEq, Inhabited

structure Plan where
  /-- Paths to import, each once, in ascending order. -/
  imports : List String := []
  methods : List Method := []
  /-- The record of the global options comes first, then those of commands in walk order. -/
  records : List OptionRecord := []
  table : List TableEntry := []
  deriving DecidableEq, Inhabited

def Plan.record? (p : Plan) (identifier : String) : Option OptionRecord :=
  p.records.find? (·.identifier == identifier)

/-- Adds a name to a list in ascending order, unless it is there. -/
def insertName (name : String) : List String → List String
  | [] => [name]
  | other :: rest =>
    if name < other then name :: other :: rest
    else if name = other then other :: rest
    else other :: insertName name rest

/-- Names in use, each with what it stands for. -/
abbrev Registry := List (String × String)

/-- Takes a name for an owner, unless it has one. -/
def Registry.claim (r : Registry) (name owner : String) : Except PlanError Registry :=
  match r.lookup name with
  | some first => .error (.duplicateName name first owner)
  | none => .ok ((name, owner) :: r)

/-- A plan in the making. -/
structure Draft where
  plan : Plan
  /-- The record of the global options. -/
  globalRecord : Option EmbeddedRecord := none
  /-- The records of the commands met so far, by command path. -/
  recordsByPath : List (List String × EmbeddedRecord) := []
  typeNames : Registry
  methodNames : Registry := []

def tableEntryTypeName : String := "CommandEntry"

namespace Draft

/-- Nothing planned; the configured type names are in use. Where two of them agree the
one listed first speaks for the name. -/
def start (config : Config) : Draft where
  plan := { imports :=
    insertName (config.runtimeText ++ "::Context") [config.runtimeText ++ "::CommandError"] }
  typeNames :=
    let names := [(config.structText, "struct name"), (config.traitText, "trait name")]
    if config.commandTable then (tableEntryTypeName, "command table") :: names else names

/-- The record of the nearest proper ancestor of `path` that has one, else the record
of the global options. -/
def ancestorRecord (d : Draft) (path : List String) : Option EmbeddedRecord :=
  (search (path.length - 1)).or d.globalRecord
where
  search : Nat → Option EmbeddedRecord
    | 0 => none
    | len + 1 => (d.recordsByPath.lookup (path.take (len + 1))).or (search len)

def addMethod (d : Draft) (method : Method) (owner : String) : Except PlanError Draft := do
  let methodNames ← d.methodNames.claim method.name owner
  return { d with methodNames, plan.methods := d.plan.methods ++ [method] }

def addHooks (d : Draft) (path : List String) (options description : Option String)
    (owner : String) : Except PlanError Draft := do
  let d ← d.addMethod ⟨methodName path (some "hook_before"), .hookBefore, options, description⟩
    owner
  d.addMethod ⟨methodName path (some "hook_after"), .hookAfter, options, none⟩ owner

/-- The fields of a record and the imports with theirs added. -/
def planFields (path : List String) (owners : Registry) (imports : List String) :
    List OptionEntry → Except PlanError (List RecordField × List String)
  | [] => .ok ([], imports)
  | .reference key :: _ => .error (.unnamedOption (optionPath path key))
  | .inline option :: rest => do
    if Text.isBlankText option.name then
      throw (.unnamedOption (optionPath path "<unnamed>"))
    let type ← option.fieldType path
    let imports := match type.scalar.importPath? with
      | some import' => insertName import' imports
      | none => imports
    let name := fieldName option.name
    let owners ← owners.claim name (optionPath path option.name)
    let (fields, imports) ← planFields path owners imports rest
    return (⟨name, option.name, type.typeText, option.description⟩ :: fields, imports)

def addRecord (d : Draft) (identifier : String) (parent : Option EmbeddedRecord)
    (options : List OptionEntry) (path : List String) (owner : String) :
    Except PlanError Draft := do
  let typeNames ← d.typeNames.claim (recordTypeName identifier) owner
  let owners := match parent with
    | some parent => [(parent.field, parent.typeName)]
    | none => []
  let (fields, imports) ← planFields path owners d.plan.imports options
  return { d with
    typeNames
    plan.imports := imports
    plan.records := d.plan.records ++ [⟨identifier, parent, fields⟩] }

def visit (config : Config) (v : CommandVisit) (d : Draft) : Except PlanError Draft := do
  let identifier := nodeIdentifier v.path
  let owner := " ".intercalate v.path
  let ancestor := d.ancestorRecord v.path
  let (options, d) ←
    if v.declaration.options.isEmpty then pure (ancestor.map (·.identifier), d)
    else do
      let d ← d.addRecord identifier ancestor v.declaration.options v.path owner
      let record : EmbeddedRecord := ⟨identifier, methodName v.path none⟩
      pure (some identifier, { d with recordsByPath := (v.path, record) :: d.recordsByPath })
  let description := v.declaration.description.or v.declaration.usage
  let (method, d) ←
    if v.isBranch then do
      pure (none, ← d.addHooks v.path options description owner)
    else do
      let name := methodName v.path none
      pure (some name, ← d.addMethod ⟨name, .action, options, description⟩ owner)
  if config.commandTable then
    let entry : TableEntry :=
      { path := v.path
        identifier
        method
        options
        usage := v.declaration.usage
        description := v.declaration.description
        minArgs := v.declaration.minArgs
        maxArgs := v.declaration.maxArgs
        hasSubcommands := v.isBranch }
    return { d with plan.table := d.plan.table ++ [entry] }
  else return d

/-- Plans the document's own options and hooks. -/
def addRoot (config : Config) (document : Document) (d : Draft) : Except PlanError Draft := do
  let d ←
    if document.options.isEmpty then pure d
    else do
      let identifier := config.globalOptionsText
      let d ← d.addRecord identifier none document.options [] "global options"
      pure { d with globalRecord := some ⟨identifier, fieldName identifier⟩ }
  d.addHooks [] (d.globalRecord.map (·.identifier)) none "root"

end Draft

/-- Plans the bindings of a document whose references are resolved; the error is the
first one met. -/
def Plan.build (document : Document) (config : Config) : Except PlanError Plan := do
  let d ← (Draft.start config).addRoot config document
  let visit (v : CommandVisit) : StateT Draft (Except PlanError) PUnit := do
    set (← (Draft.visit config v (← get) : Except PlanError Draft))
  let (_, d) ← (document.commands.walk visit).run d
  return d.plan

end CommandSpec
