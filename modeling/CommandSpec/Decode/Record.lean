import CommandSpec.Tree.Read

/-! Records read field by field in the order the source gives them. A field stands at
most once; a key that is no field is skipped. -/
namespace CommandSpec

/-- Reads the fields behind those in `seen` into `record`. -/
def readFields (fields : List String)
    (setField : String → Node → α → Except DecodeError α) (seen : List String) (record : α) :
    List (Node × Node) → Except DecodeError α
  | [] => .ok record
  | (key, value) :: rest => do
    let name ← key.readFieldName
    if fields.contains name then
      if seen.contains name then throw (.duplicateField name)
      let record ← setField name value record
      readFields fields setField (name :: seen) record rest
    else
      value.skip
      readFields fields setField seen record rest

/-- Reads a list of nodes one by one. -/
def readEach (read : Node → Except DecodeError α) : List Node → Except DecodeError (List α)
  | [] => .ok []
  | n :: rest => do
    let a ← read n
    return a :: (← readEach read rest)

end CommandSpec
