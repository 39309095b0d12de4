import CommandSpec.Decode.Record
import CommandSpec.Spec.NameMap
import CommandSpec.Spec.OptionSpec
import CommandSpec.Text.Blank

/-! Options and references read from document trees. An entry of an option list may be a
reference, so its other fields are first collected as finished values and then decoded;
an option that cannot be a reference is decoded directly. -/
namespace CommandSpec

/-- How the bindings inside an option are read. Collected ones may also be written as a
sequence of their fields, or with field numbers as keys. -/
inductive FieldSource where
  | direct
  | collected
  deriving DecidableEq

/-- The fields of a binding, each with its node. -/
def readBinding (source : FieldSource) (expected : String) (fields : List String)
    (setField : String → Node → α → Except DecodeError α) (start : α) (n : Node) :
    Except DecodeError α := do
  match source, n with
  | .collected, .seq items =>
    if items.length > fields.length then
      -- the surplus shows only after the fields were read
      discard <| readFields fields setField [] start
        ((fields.map Node.text).zip (items.take fields.length))
      throw (.tooLong items.length fields.length)
    readFields fields setField [] start ((fields.map Node.text).zip items)
  | .collected, .map entries =>
    readNumbered [] start entries
  | _, n =>
    readFields fields setField [] start (← n.readEntries expected)
where
  /-- The field that a key names or numbers; a number without a field names none. -/
  keyName : Node → Except DecodeError String
    | .int i => if i < 0 then .error ((Node.int i).mismatch "field identifier")
      else .ok (fields[i.toNat]?.getD "")
    | k => k.readFieldName
  readNumbered (seen : List String) (record : α) :
      List (Node × Node) → Except DecodeError α
    | [] => .ok record
    | (key, value) :: rest => do
      let name ← keyName key
      if fields.contains name then
        if seen.contains name then throw (.duplicateField name)
        let record ← setField name value record
        readNumbered (name :: seen) record rest
      else readNumbered seen record rest

def readEnv (source : FieldSource) (n : Node) : Except DecodeError String :=
  readBinding source "struct EnvBinding" ["name"] (fun _ v _ => v.readString) "" n

def setFlagField (name : String) (v : Node) (f : FlagBinding) :
    Except DecodeError FlagBinding := do
  if name == "name" then return { f with name := ← v.readString }
  else
    match ← v.readOptional with
    | none => return { f with aliases := [] }
    | some v =>
      return { f with aliases := ← readEach Node.readString (← v.readItems "a sequence") }

def readFlag (source : FieldSource) (n : Node) : Except DecodeError FlagBinding :=
  readBinding source "struct FlagBinding" ["name", "aliases"] setFlagField {} n

namespace OptionSpec

def fieldNames : List String :=
  ["name", "type", "description", "usage", "env", "flag", "default", "required"]

def setField (source : FieldSource) (field : String) (v : Node) (o : OptionSpec) :
    Except DecodeError OptionSpec := do
  match field with
  | "name" => return { o with name := ← v.readString }
  | "type" => return { o with typeTag := ← v.readString }
  | "description" => return { o with description := ← v.readOptionalString }
  | "usage" => return { o with usage := ← v.readOptionalString }
  | "env" =>
    match ← v.readOptional with
    | none => return { o with env := "" }
    | some v => return { o with env := ← readEnv source v }
  | "flag" =>
    match ← v.readOptional with
    | none => return { o with flag := {} }
    | some v => return { o with flag := ← readFlag source v }
  | "default" => return { o with default := ← v.readScalarText }
  | _ => return { o with required := ← v.readBool }

/-- An option that is no reference. -/
def ofNode (n : Node) : Except DecodeError OptionSpec := do
  readFields fieldNames (setField .direct) [] {} (← n.readEntries "struct OptionSchema")

/-- An option from collected fields, of which others may be among them. -/
def ofCollected (seen : List String) (o : OptionSpec) :
    List (String × Node) → Except DecodeError OptionSpec
  | [] => .ok o
  | (name, v) :: rest => do
    if fieldNames.contains name then
      if seen.contains name then throw (.duplicateField name)
      ofCollected (name :: seen) (← setField .collected name v o) rest
    else ofCollected seen o rest

end OptionSpec

def referenceField : String := "$ref"

namespace OptionEntry

/-- The reference, if one is set, and the other fields as finished values. -/
def collect (key? : Option (Option String)) :
    List (Node × Node) → Except DecodeError (Option String × List (String × Node))
  | [] => .ok (key?.getD none, [])
  | (key, v) :: rest => do
    let name ← key.readFieldName
    if name == referenceField then
      if key?.isSome then throw (.duplicateField name)
      collect (some (← v.readOptionalString)) rest
    else
      let v ← v.settle
      let (key?, fields) ← collect key? rest
      return (key?, (name, v) :: fields)

/-- A reference that is not blank must name a component; its other fields are decoded
but not kept. -/
def ofNode (n : Node) : Except DecodeError OptionEntry := do
  let (key?, fields) ← collect none (← n.readEntries "struct RawOptionOrReference")
  let option ← OptionSpec.ofCollected [] {} fields
  match key? with
  | some key =>
    if Text.isBlankText key then return inline option
    else if isReferenceKey key then return .reference key
    else throw (.invalidReference key)
  | none => return inline option

end OptionEntry

/-- Entries of the map form of an option list; the keys name inline options. -/
def readNamedEntries : List (Node × Node) → Except DecodeError (List OptionEntry)
  | [] => .ok []
  | (key, v) :: rest => do
    let name ← key.readString
    let entry ← OptionEntry.ofNode v
    return entry.named name :: (← readNamedEntries rest)

/-- An option list in sequence or map form. -/
def readOptionList (n : Node) : Except DecodeError (List OptionEntry) :=
  let expected := "a list or map of options"
  match n with
  | .null => .ok []
  | .seq items => readEach OptionEntry.ofNode items
  | .map entries => readNamedEntries entries
  | .scalar s =>
    if (Yaml.Scalar.localTag? s.tag).isSome then .error (.invalidType .enum expected)
    else
      match s.resolve with
      | .ok .null => .ok []
      | .ok r => .error (.invalidType r.found expected)
      | .error e => .error e
  | n => .error (n.mismatch expected)

/-- Named entries in name order, the last of one name. -/
def readEntryMap (m : NameMap OptionEntry) :
    List (Node × Node) → Except DecodeError (NameMap OptionEntry)
  | [] => .ok m
  | (key, v) :: rest => do
    let name ← key.readString
    let entry ← OptionEntry.ofNode v
    readEntryMap (m.insert name entry) rest

/-- Components are options, named after their keys; the first in name order that is a
reference is an error. -/
def componentsOf (m : NameMap OptionSpec) :
    List (String × OptionEntry) → Except DecodeError (NameMap OptionSpec)
  | [] => .ok m
  | (name, .inline o) :: rest => componentsOf (m.insert name (o.named name)) rest
  | (name, .reference key) :: _ => .error (.componentReference name key)

def readNamedOptions (n : Node) : Except DecodeError (NameMap OptionSpec) := do
  match ← n.readOptional with
  | none => return .empty
  | some n => do
    let entries ← readEntryMap .empty (← n.readEntries "a map")
    componentsOf .empty entries.entries

/-- The block of reusable definitions. -/
def readComponents (n : Node) : Except DecodeError (NameMap OptionSpec) := do
  readFields ["options"] (fun _ v _ => readNamedOptions v) [] .empty
    (← n.readEntries "struct Components")

end CommandSpec
