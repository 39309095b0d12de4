import CommandSpec.Spec.Document
import CommandSpec.Spec.Report

/-! Argument bounds. The minimum must not exceed the maximum, and sub-commands
take the place of arguments. The whole tree is checked; nothing stops early. -/
namespace CommandSpec

def minAboveMax : String := "minArgs must be less than maxArgs"
def argsBesideCommands : String := "when sub-commands are specified, maxArgs must be 0"

/-- The checks of a single node. -/
def checkBounds (minArgs maxArgs : UInt32) (children : CommandForest) (scope : Scope)
    (r : Report) : Report :=
  let r := if minArgs > maxArgs then scope.emit minAboveMax r else r
  if !children.isEmpty && maxArgs != 0 then scope.emit argsBesideCommands r else r

def CommandForest.checkBounds (scope : Scope) : CommandForest → Report → Report
  | nil, r => r
  | node name d children siblings, r =>
    let (here, r) := scope.field name r
    let r := CommandSpec.checkBounds d.minArgs d.maxArgs children here r
    siblings.checkBounds scope (children.checkBounds here r)

namespace Document

def checkBounds (d : Document) (scope : Scope) (r : Report) : Report :=
  d.commands.forest.checkBounds scope
    (CommandSpec.checkBounds d.minArgs d.maxArgs d.commands.forest scope r)

/-- Every violation, or none; a tracker around the report tells which. -/
def validate (d : Document) : Except (List FieldError) Unit :=
  let (tracker, r) := Scope.root.track {}
  let r := d.checkBounds tracker r
  if tracker.isInvalid r then .error r.errors else .ok ()

end Document
end CommandSpec
