import CommandSpec.Decode.OptionEntry
import CommandSpec.Spec.Commands

/-! Command trees read from document trees. A command without a body is an empty one, and
of commands with one name the last stays. -/
namespace CommandSpec

/-- Fields of a command other than its sub-commands. -/
def Declaration.setField (field : String) (v : Node) (d : Declaration) :
    Except DecodeError Declaration := do
  match field with
  | "usage" => return { d with usage := ← v.readOptionalString }
  | "description" => return { d with description := ← v.readOptionalString }
  | "options" => return { d with options := ← readOptionList v }
  | "minArgs" => return { d with minArgs := ← v.readUInt32 }
  | _ => return { d with maxArgs := ← v.readUInt32 }

def Command.fieldNames : List String :=
  ["usage", "description", "options", "commands", "minArgs", "maxArgs"]

/-- Whether a scalar may stand for an empty map that may be absent. -/
def acceptVoid (s : Yaml.Scalar) (expected : String) : Except DecodeError Unit := do
  if ← Node.scalarIsAbsent s then return ()
  else if s.isVoid then return ()
  else throw ((Node.scalar s).mismatch expected)

mutual

def Commands.ofNode : Node → Except DecodeError Commands
  | .null => .ok {}
  | .map entries => Commands.ofEntries {} entries
  | .tagged _ content => Commands.ofNode content
  | .scalar s => (acceptVoid s "a map").map fun _ => {}
  | n => .error (n.mismatch "a map")

def Commands.ofEntries (c : Commands) : List (Node × Node) → Except DecodeError Commands
  | [] => .ok c
  | (key, body) :: rest => do
    let name ← key.readString
    let command ← Command.ofBody body
    Commands.ofEntries (c.insert name command) rest

/-- A command whose body may be absent. -/
def Command.ofBody : Node → Except DecodeError Command
  | .null => .ok {}
  | .map fields => Command.ofFields [] {} fields
  | .tagged _ content => Command.ofBody content
  | .scalar s => (acceptVoid s "struct CommandSchema").map fun _ => {}
  | n => .error (n.mismatch "struct CommandSchema")

def Command.ofFields (seen : List String) (c : Command) :
    List (Node × Node) → Except DecodeError Command
  | [] => .ok c
  | (key, v) :: rest => do
    let name ← key.readFieldName
    if Command.fieldNames.contains name then
      if seen.contains name then throw (.duplicateField name)
      let c ←
        if name == "commands" then do
          let commands ← Commands.ofNode v
          pure { c with commands }
        else do
          let d ← c.toDeclaration.setField name v
          pure { c with toDeclaration := d }
      Command.ofFields (name :: seen) c rest
    else
      v.skip
      Command.ofFields seen c rest

end

/-- A command on its own; of the scalars only an empty one stands for a command. -/
def Command.ofNode (n : Node) : Except DecodeError Command :=
  match n with
  | .scalar s =>
    if s.isVoid then .ok {} else .error (n.mismatch "struct CommandSchema")
  | n => Command.ofBody n

end CommandSpec
