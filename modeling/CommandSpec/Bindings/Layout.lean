import CommandSpec.Bindings.CodeWriter
import CommandSpec.Bindings.Plan
import CommandSpec.Text.Quoted

/-! The generated module as lines and blocks: imports, the trait with all methods, the
option records, an implementation that does nothing, and the command table if wanted. -/
namespace CommandSpec.Layout

def header : String := "// Code generated by optionapi-gen. DO NOT EDIT."

def resultType : String := "Result<(), CommandError>"

/-- A method up to its result type; `mark` stands before every parameter name but `self`. -/
def signature (m : Method) (mark : String) : String :=
  let options := match m.options with
    | some identifier => ", " ++ mark ++ "opts: &" ++ recordTypeName identifier
    | none => ""
  let result := if m.kind = .hookAfter then ", " ++ mark ++ "result: " ++ resultType else ""
  "fn " ++ m.name ++ "(&self, " ++ mark ++ "ctx: &Context" ++ options ++ result ++ ") -> " ++
    resultType

/-- One comment line per line of the trimmed text; nothing for a blank one. -/
def docComment (text : Option String) : List Step :=
  match text with
  | none => []
  | some text =>
    (Text.lines (Text.trim text.toList)).map fun line =>
      let line := Text.trimEnd line
      if line.isEmpty then .line "///" else .line ("/// " ++ String.ofList line)

def traitDeclaration (config : Config) (p : Plan) : List Step :=
  [.line ("pub trait " ++ config.traitText ++ " \x7b"),
   .block (p.methods.flatMap fun m => docComment m.description ++ [.line (signature m "" ++ ";")]),
   .line "\x7d"]

def record (r : OptionRecord) : List Step :=
  let parent := match r.parent with
    | some parent => [.line ("pub " ++ parent.field ++ ": " ++ parent.typeName ++ ",")]
    | none => []
  [.line "#[derive(Debug, Clone)]",
   .line ("pub struct " ++ r.typeName ++ " \x7b"),
   .block (parent ++ r.fields.flatMap fun f =>
     docComment f.description ++ [.line ("pub " ++ f.name ++ ": " ++ f.typeText ++ ",")]),
   .line "\x7d"]

def defaultBody : MethodKind → String
  | .hookBefore | .hookAfter => "Ok(())"
  | .action => "Err(CommandError::Unimplemented)"

def methodBody (m : Method) : List Step :=
  [.line (signature m "_" ++ " \x7b"), .block [.line (defaultBody m.kind)], .line "\x7d"]

/-- Method bodies with a blank line between them. -/
def methodBodies : List Method → List Step
  | [] => []
  | [m] => methodBody m
  | m :: rest => methodBody m ++ .blank :: methodBodies rest

def defaultImplementation (config : Config) (p : Plan) : List Step :=
  [.line ("/// Default [\x60" ++ config.traitText ++
     "\x60]: hooks succeed and commands report \x60CommandError::Unimplemented\x60."),
   .line "#[derive(Debug, Clone, Copy, Default)]",
   .spacedLine ("pub struct " ++ config.structText ++ ";"),
   .line ("impl " ++ config.traitText ++ " for " ++ config.structText ++ " \x7b"),
   .block (methodBodies p.methods),
   .line "\x7d"]

def optionalLiteral : Option String → String
  | some s => "Some(" ++ Text.quote s ++ ")"
  | none => "None"

def tableEntry (e : TableEntry) : List Step :=
  [.line (tableEntryTypeName ++ " \x7b"),
   .block [
     .line ("path: &[" ++ ", ".intercalate (e.path.map Text.quote) ++ "],"),
     .line ("identifier: " ++ Text.quote e.identifier ++ ","),
     .line ("method: " ++ optionalLiteral e.method ++ ","),
     .line ("options: " ++ optionalLiteral (e.options.map recordTypeName) ++ ","),
     .line ("usage: " ++ optionalLiteral e.usage ++ ","),
     .line ("description: " ++ optionalLiteral e.description ++ ","),
     .line ("min_args: " ++ toString e.minArgs.toNat ++ ","),
     .line ("max_args: " ++ toString e.maxArgs.toNat ++ ","),
     .line ("has_sub_commands: " ++ (if e.hasSubcommands then "true" else "false") ++ ",")],
   .line "\x7d,"]

def commandTable (p : Plan) : List Step :=
  [.line "#[derive(Debug, Clone, Copy, PartialEq, Eq)]",
   .line ("pub struct " ++ tableEntryTypeName ++ " \x7b"),
   .block [
     .line "pub path: &'static [&'static str],",
     .line "pub identifier: &'static str,",
     .line "pub method: Option<&'static str>,",
     .line "pub options: Option<&'static str>,",
     .line "pub usage: Option<&'static str>,",
     .line "pub description: Option<&'static str>,",
     .line "pub min_args: u32,",
     .line "pub max_args: u32,",
     .line "pub has_sub_commands: bool,"],
   .spacedLine "\x7d"] ++
  if p.table.isEmpty then
    [.line ("pub const COMMANDS: &[" ++ tableEntryTypeName ++ "] = &[];")]
  else
    [.line ("pub const COMMANDS: &[" ++ tableEntryTypeName ++ "] = &["),
     .block (p.table.flatMap tableEntry),
     .line "];"]

def moduleBody (config : Config) (p : Plan) : List Step :=
  p.imports.map (fun path => .line ("use " ++ path ++ ";")) ++ [.blank] ++
  traitDeclaration config p ++ [.blank] ++
  p.records.flatMap (fun r => record r ++ [.blank]) ++
  defaultImplementation config p ++
  if config.commandTable then .blank :: commandTable p else []

def module (config : Config) (p : Plan) : List Step :=
  [.spacedLine header,
   .line ("pub mod " ++ config.moduleText ++ " \x7b"),
   .block (moduleBody config p),
   .line "\x7d"]

end CommandSpec.Layout
