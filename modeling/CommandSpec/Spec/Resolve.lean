import CommandSpec.Spec.Document

/-! References replaced by copies of the component options they name. -/
namespace CommandSpec

/-- Component options by reference key. -/
abbrev ReferenceTable := List (String × OptionSpec)

def Document.referenceTable (d : Document) : ReferenceTable :=
  d.components.entries.map fun (name, option) => (referenceKey name, option)

/-- The entry spelled out, or the key that names no component. -/
def OptionEntry.resolve (table : ReferenceTable) : OptionEntry → Except String OptionEntry
  | inline o => .ok (inline o)
  | reference key =>
    match table.lookup key with
    | some o => .ok (inline o)
    | none => .error key

def resolveEntries (table : ReferenceTable) : List OptionEntry → Except String (List OptionEntry)
  | [] => .ok []
  | entry :: rest => do
    let entry ← entry.resolve table
    return entry :: (← resolveEntries table rest)

def Declaration.resolve (table : ReferenceTable) (d : Declaration) :
    Except String Declaration := do
  return { d with options := ← resolveEntries table d.options }

/-- Resolves the document's own options, then the command tree; the error is the
first key without a component. -/
def Document.resolve (d : Document) : Except String Document := do
  let table := d.referenceTable
  let options ← resolveEntries table d.options
  let commands ← d.commands.traverse (·.resolve table)
  return { d with options, commands }

end CommandSpec
