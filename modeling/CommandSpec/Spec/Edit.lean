import CommandSpec.Spec.Document

/-! Looking up and changing the nodes of a document. The empty path means the document
itself, which then counts as a command without usage and description. -/
namespace CommandSpec.Document

def root (d : Document) : Command where
  options := d.options
  minArgs := d.minArgs
  maxArgs := d.maxArgs
  commands := d.commands

/-- The document with the options, bounds and sub-commands of `c`. -/
def withRoot (d : Document) (c : Command) : Document :=
  { d with
    options := c.options, commands := c.commands, minArgs := c.minArgs, maxArgs := c.maxArgs }

def nodeAt? (d : Document) (path : List String) : Option Command :=
  if path.isEmpty then some d.root else d.commands.findPath? path

def modifyAt? (d : Document) (path : List String) (f : Command → Command) : Option Document :=
  if path.isEmpty then some (d.withRoot (f d.root))
  else (d.commands.modify? f path).map fun commands => { d with commands }

end CommandSpec.Document
