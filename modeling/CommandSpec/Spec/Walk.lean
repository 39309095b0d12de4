import CommandSpec.Spec.Commands

/-! Visiting the commands of a tree: each before its sub-commands, siblings in
name order. -/
namespace CommandSpec

/-- A command as a visitor meets it. -/
structure CommandVisit where
  /-- Names from the top level down, the command's own name last. -/
  path : List String
  declaration : Declaration
  children : CommandForest
  deriving DecidableEq

def CommandVisit.isBranch (v : CommandVisit) : Bool := !v.children.isEmpty

/-- Runs `visit` on every command below `path`. -/
def CommandForest.walk [Monad m] (visit : CommandVisit → m PUnit) (path : List String) :
    CommandForest → m PUnit
  | nil => pure ⟨⟩
  | node name declaration children siblings => do
    visit ⟨path ++ [name], declaration, children⟩
    children.walk visit (path ++ [name])
    siblings.walk visit path

def Commands.walk [Monad m] (visit : CommandVisit → m PUnit) (c : Commands) : m PUnit :=
  c.forest.walk visit []

end CommandSpec
