import CommandSpec.Spec.NameMap
import CommandSpec.Spec.Commands

/-! A whole specification. The document is the root of the command tree: it has
options, sub-commands and argument bounds like a command, but no name. -/
namespace CommandSpec

structure Document where
  /-- The version of the `optionapi` block. -/
  version : Option String := none
  options : List OptionEntry := []
  commands : Commands := {}
  /-- Reusable options that references point at. -/
  components : NameMap OptionSpec := .empty
  minArgs : UInt32 := 0
  maxArgs : UInt32 := 0
  deriving DecidableEq, Inhabited

/-- Adds a reusable option, named after its key when it has no name. -/
def Document.insertComponent (d : Document) (name : String) (o : OptionSpec) : Document :=
  { d with components := d.components.insert name (o.named name) }

end CommandSpec
