import CommandSpec.Text.Blank

/-! Names used in generated code. Each has a default that holds when it is not
set or blank. -/
namespace CommandSpec

structure Config where
  moduleName : Option String := none
  traitName : Option String := none
  structName : Option String := none
  globalOptionsName : Option String := none
  runtimeCrate : Option String := none
  /-- Also write a table of all commands. -/
  commandTable : Bool := false
  deriving DecidableEq, Inhabited

/-- A name without the blanks around it, or the default if nothing is left. -/
def orDefault (name : Option String) (default : String) : String :=
  match name with
  | none => default
  | some name =>
    let cs := Text.trim name.toList
    if cs.isEmpty then default else String.ofList cs

namespace Config

def moduleText (c : Config) : String := orDefault c.moduleName "cli_stub"
def traitText (c : Config) : String := orDefault c.traitName "Interface"
def structText (c : Config) : String := orDefault c.structName "Unimplemented"
def globalOptionsText (c : Config) : String := orDefault c.globalOptionsName "AllCommand"
def runtimeText (c : Config) : String := orDefault c.runtimeCrate "optionapi_runtime"

/-- What `other` sets, and `c` where it sets nothing. -/
def mergedWith (c other : Config) : Config where
  moduleName := other.moduleName.or c.moduleName
  traitName := other.traitName.or c.traitName
  structName := other.structName.or c.structName
  globalOptionsName := other.globalOptionsName.or c.globalOptionsName
  runtimeCrate := other.runtimeCrate.or c.runtimeCrate
  commandTable := c.commandTable || other.commandTable

end Config
end CommandSpec
