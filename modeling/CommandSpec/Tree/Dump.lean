import CommandSpec.Spec.Document
import CommandSpec.Bindings.Config
import CommandSpec.Tree.Node

/-! Documents and their parts written as document trees. A field that says no more than
its absence would is left out. -/
namespace CommandSpec

/-- A field of a record under its name. -/
def fieldNode (name : String) (value : Node) : Node × Node := (.text name, value)

def optionalField (name : String) : Option String → List (Node × Node)
  | none => []
  | some s => [fieldNode name (.text s)]

def filledField (name s : String) : List (Node × Node) :=
  if s.isEmpty then [] else [fieldNode name (.text s)]

def countField (name : String) (n : UInt32) : Node × Node := fieldNode name (.int n.toNat)

def FlagBinding.toNode (f : FlagBinding) : Node :=
  .map (fieldNode "name" (.text f.name) ::
    if f.aliases.isEmpty then [] else [fieldNode "aliases" (.seq (f.aliases.map .text))])

def OptionSpec.toNode (o : OptionSpec) : Node :=
  .map <|
    filledField "name" o.name ++
    filledField "type" o.typeTag ++
    optionalField "description" o.description ++
    optionalField "usage" o.usage ++
    (if o.env.isEmpty then [] else
      [fieldNode "env" (.map [fieldNode "name" (.text o.env)])]) ++
    (if o.flag.isEmpty then [] else [fieldNode "flag" o.flag.toNode]) ++
    optionalField "default" o.default ++
    (if o.required then [fieldNode "required" (.bool true)] else [])

def OptionEntry.toNode : OptionEntry → Node
  | inline o => o.toNode
  | reference key => .map [fieldNode "$ref" (.text key)]

def optionListNode (options : List OptionEntry) : Node := .seq (options.map OptionEntry.toNode)

/-- The fields of a command, given those of its sub-commands. -/
def Declaration.toNode (d : Declaration) (children : List (Node × Node)) : Node :=
  .map <|
    optionalField "usage" d.usage ++
    optionalField "description" d.description ++
    (if d.options.isEmpty then [] else [fieldNode "options" (optionListNode d.options)]) ++
    (if children.isEmpty then [] else [fieldNode "commands" (.map children)]) ++
    [countField "minArgs" d.minArgs, countField "maxArgs" d.maxArgs]

def CommandForest.toEntries : CommandForest → List (Node × Node)
  | nil => []
  | node name d children siblings =>
    fieldNode name (d.toNode children.toEntries) :: siblings.toEntries

def Commands.toNode (c : Commands) : Node := .map c.forest.toEntries

def Command.toNode (c : Command) : Node := c.toDeclaration.toNode c.commands.forest.toEntries

def namedOptionsNode (m : NameMap OptionSpec) : Node :=
  .map (m.entries.map fun (name, o) => fieldNode name o.toNode)

def componentsNode (m : NameMap OptionSpec) : Node :=
  .map (if m.isEmpty then [] else [fieldNode "options" (namedOptionsNode m)])

def versionNode (version : Option String) : Node := .map (optionalField "version" version)

def Document.toNode (d : Document) : Node :=
  .map [
    fieldNode "optionapi" (versionNode d.version),
    fieldNode "options" (optionListNode d.options),
    fieldNode "commands" d.commands.toNode,
    fieldNode "components" (componentsNode d.components),
    countField "minArgs" d.minArgs,
    countField "maxArgs" d.maxArgs]

def Config.toNode (c : Config) : Node :=
  .map <|
    optionalField "module_name" c.moduleName ++
    optionalField "trait_name" c.traitName ++
    optionalField "struct_name" c.structName ++
    optionalField "global_options_name" c.globalOptionsName ++
    optionalField "runtime_crate" c.runtimeCrate ++
    [fieldNode "command_table" (.bool c.commandTable)]

end CommandSpec
