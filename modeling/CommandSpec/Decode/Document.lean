import CommandSpec.Decode.Commands
import CommandSpec.Spec.Document

/-! Documents read from document trees. -/
namespace CommandSpec

/-- The version of an `optionapi` block, whatever kind of scalar it is. -/
def readVersion (n : Node) : Except DecodeError (Option String) := do
  readFields ["version"] (fun _ v _ => v.readScalarText) [] none
    (← n.readEntries "struct OptionApi")

namespace Document

def fieldNames : List String :=
  ["optionapi", "options", "commands", "components", "minArgs", "maxArgs"]

def setField (field : String) (v : Node) (d : Document) : Except DecodeError Document := do
  match field with
  | "optionapi" =>
    match ← v.readOptional with
    | none => return { d with version := none }
    | some v => return { d with version := ← readVersion v }
  | "options" => return { d with options := ← readOptionList v }
  | "commands" => return { d with commands := ← Commands.ofNode v }
  | "components" =>
    match ← v.readOptional with
    | none => return { d with components := .empty }
    | some v => return { d with components := ← readComponents v }
  | "minArgs" => return { d with minArgs := ← v.readUInt32 }
  | _ => return { d with maxArgs := ← v.readUInt32 }

def ofNode (n : Node) : Except DecodeError Document := do
  readFields fieldNames setField [] {} (← n.readEntries "struct Document")

end Document
end CommandSpec
