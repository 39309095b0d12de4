import CommandSpec.Bindings.Config
import CommandSpec.Decode.Record

/-! Configurations read from document trees. -/
namespace CommandSpec.Config

def fieldNames : List String :=
  ["module_name", "trait_name", "struct_name", "global_options_name", "runtime_crate",
   "command_table"]

def setField (field : String) (v : Node) (c : Config) : Except DecodeError Config := do
  match field with
  | "module_name" => return { c with moduleName := ← v.readOptionalString }
  | "trait_name" => return { c with traitName := ← v.readOptionalString }
  | "struct_name" => return { c with structName := ← v.readOptionalString }
  | "global_options_name" => return { c with globalOptionsName := ← v.readOptionalString }
  | "runtime_crate" => return { c with runtimeCrate := ← v.readOptionalString }
  | _ => return { c with commandTable := ← v.readBool }

def ofNode (n : Node) : Except DecodeError Config := do
  readFields fieldNames setField [] {} (← n.readEntries "struct GeneratorConfig")

end CommandSpec.Config
