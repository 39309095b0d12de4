import CommandSpec.Tree.Node

/-! Reading nodes at a type. A scalar of a text is read by what is asked for: any
scalar is a string, while numbers and truth values must be plain. A finished value
must be of the type asked for; nothing stands for an empty record, map or list. -/
namespace CommandSpec
open Decimal Yaml

/-- Untyped reading of a scalar, its local tag set aside. -/
def Yaml.Scalar.resolve (s : Scalar) : Except DecodeError Resolved :=
  let mismatch (expected : String) : Except DecodeError Resolved :=
    .error (.invalidValue (.text s.text) expected)
  match s.tag with
  | some tag =>
    if tag == boolTag then
      match readBool? s.text with
      | some b => .ok (.bool b)
      | none => mismatch "a boolean"
    else if tag == intTag then
      match resolveInteger? s.text with
      | some r => .ok r
      | none => mismatch "an integer"
    else if tag == floatTag then
      match readFloat? s.text with
      | some x => .ok (.float x)
      | none => mismatch "a float"
    else if tag == nullTag then
      if isNullWord s.text then .ok .null else mismatch "null"
    else if (Scalar.localTag? s.tag).isSome && s.isPlain then .ok (resolvePlain s.text)
    else .ok (.text s.text)
  | none => .ok (if s.isPlain then resolvePlain s.text else .text s.text)

namespace Yaml.Resolved

def found : Resolved → Found
  | null => .unit
  | bool b => .bool b
  | int i => .int i
  | wide i => .wide i
  | float x => .float x
  | text s => .text s

/-- The finished value; integers beyond 64 bits have none. -/
def node : Resolved → Except DecodeError Node
  | null => .ok .null
  | bool b => .ok (.bool b)
  | int i => .ok (.int i)
  | wide i => .error (.invalidType (.wide i) "any value")
  | float x => .ok (.float x)
  | text s => .ok (.text s)

end Yaml.Resolved

namespace Node

/-- The error of a reader that expected something else. -/
def mismatch (n : Node) (expected : String) : DecodeError :=
  match n with
  | null => .invalidType .unit expected
  | bool b => .invalidType (.bool b) expected
  | int i => .invalidType (.int i) expected
  | float x => .invalidType (.float x) expected
  | text s => .invalidType (.text s) expected
  | scalar s =>
    match s.resolve with
    | .ok r => .invalidType r.found expected
    | .error _ => .invalidType (.text s.text) expected
  | seq _ => .invalidType .seq expected
  | map _ => .invalidType .map expected
  | tagged _ _ => .invalidType .enum expected
  | fault f => .source f

/-- Without the local tags around it. -/
def untagged : Node → Node
  | tagged _ content => content.untagged
  | n => n

def readString (n : Node) : Except DecodeError String :=
  match n.untagged with
  | text s => .ok s
  | scalar s => .ok s.text
  | n => .error (n.mismatch "a string")

/-- The name of a record's field. -/
def readFieldName (n : Node) : Except DecodeError String :=
  match n.untagged with
  | text s => .ok s
  | scalar s => .ok s.text
  | n => .error (n.mismatch "field identifier")

def readBool (n : Node) : Except DecodeError Bool :=
  match n.untagged with
  | bool b => .ok b
  | scalar s =>
    match if s.mayBe boolTag then readBool? s.text else none with
    | some b => .ok b
    | none => .error ((scalar s).mismatch "a boolean")
  | n => .error (n.mismatch "a boolean")

private def narrow (i : Int) : Except DecodeError UInt32 :=
  if 0 ≤ i && i < (Nat.pow 2 32 : Nat) then .ok (UInt32.ofNat i.toNat)
  else .error (.invalidValue (.int i) "u32")

/-- A count; in a text it has no minus sign, not even before a zero. -/
def readUInt32 (n : Node) : Except DecodeError UInt32 :=
  match n.untagged with
  | int i => narrow i
  | scalar s =>
    match if s.mayBe intTag then resolveInteger? s.text else none with
    | some (.int i) =>
      if s.text.startsWith "-" then .error ((scalar s).mismatch "u32") else narrow i
    | _ => .error ((scalar s).mismatch "u32")
  | n => .error (n.mismatch "u32")

/-- Every count reads back. -/
theorem readUInt32_toNat (n : UInt32) : readUInt32 (.int n.toNat) = .ok n := by
  have hn : (n.toNat : Int) < (Nat.pow 2 32 : Nat) := by exact_mod_cast n.toNat_lt
  unfold readUInt32 narrow
  simp only [untagged]
  rw [if_pos (by simpa using hn)]
  simp

/-- Whether a scalar stands for an absent value: it is plain and empty, or a word for
nothing. -/
def scalarIsAbsent (s : Scalar) : Except DecodeError Bool :=
  if !s.isPlain then .ok false
  else
    match s.tag with
    | none => .ok (s.text.isEmpty || isNullWord s.text)
    | some tag =>
      if tag == nullTag then
        if isNullWord s.text then .ok true else .error (.invalidValue (.text s.text) "null")
      else .ok false

/-- The node unless it stands for an absent value. -/
def readOptional (n : Node) : Except DecodeError (Option Node) :=
  match n with
  | null => .ok none
  | scalar s => (scalarIsAbsent s).map fun absent => if absent then none else some n
  | fault f => .error (.source f)
  | n => .ok (some n)

def readOptionalString (n : Node) : Except DecodeError (Option String) := do
  match ← n.readOptional with
  | none => return none
  | some n => return some (← n.readString)

def readItems (n : Node) (expected : String) : Except DecodeError (List Node) :=
  match n.untagged with
  | seq items => .ok items
  | null => .ok []
  | scalar s => if s.isVoid then .ok [] else .error ((scalar s).mismatch expected)
  | n => .error (n.mismatch expected)

def readEntries (n : Node) (expected : String) : Except DecodeError (List (Node × Node)) :=
  match n.untagged with
  | map entries => .ok entries
  | null => .ok []
  | scalar s => if s.isVoid then .ok [] else .error ((scalar s).mismatch expected)
  | n => .error (n.mismatch expected)

mutual

/-- The first fault that stops even a reader that skips the node. -/
def skip : Node → Except DecodeError Unit
  | fault f => if f.endsSource then .error (.source f) else .ok ()
  | seq items => skipItems items
  | map entries => skipEntries entries
  | tagged _ content => content.skip
  | _ => .ok ()

def skipItems : List Node → Except DecodeError Unit
  | [] => .ok ()
  | n :: rest => do n.skip; skipItems rest

def skipEntries : List (Node × Node) → Except DecodeError Unit
  | [] => .ok ()
  | (k, v) :: rest => do k.skip; v.skip; skipEntries rest

end

mutual

/-- The node with every scalar resolved, as fields are kept that are decoded later.
Such fields have no local tags. -/
def settle : Node → Except DecodeError Node
  | scalar s =>
    if (Scalar.localTag? s.tag).isSome then .error .taggedField
    else s.resolve.bind (·.node)
  | seq items => (settleItems items).map seq
  | map entries => (settleEntries entries).map map
  | tagged _ _ => .error .taggedField
  | fault f => .error (.source f)
  | n => .ok n

def settleItems : List Node → Except DecodeError (List Node)
  | [] => .ok []
  | n :: rest => do
    let n ← n.settle
    return n :: (← settleItems rest)

def settleEntries : List (Node × Node) → Except DecodeError (List (Node × Node))
  | [] => .ok []
  | (k, v) :: rest => do
    let k ← k.settle
    let v ← v.settle
    return (k, v) :: (← settleEntries rest)

end

/-- What a finished key shows of itself in a message. -/
def keyFound : Node → Found
  | null => .unit
  | bool b => .bool b
  | int i => .int i
  | float x => .float x
  | text s => .text s
  | seq _ => .seq
  | map _ => .map
  | _ => .enum

mutual

/-- The finished value of a node, local tags kept; no map repeats a key. -/
def value : Node → Except DecodeError Node
  | scalar s =>
    match Scalar.localTag? s.tag with
    | some "" => .error .emptyTag
    | some tag => do
      let content ← Resolved.node (if s.isPlain then resolvePlain s.text else .text s.text)
      return tagged tag content
    | none => s.resolve.bind (·.node)
  | seq items => (valueItems items).map seq
  | map entries => (valueEntries [] entries).map map
  | tagged tag content =>
    if tag.isEmpty then .error .emptyTag else content.value.map (tagged tag)
  | fault f => .error (.source f)
  | n => .ok n

def valueItems : List Node → Except DecodeError (List Node)
  | [] => .ok []
  | n :: rest => do
    let n ← n.value
    return n :: (← valueItems rest)

def valueEntries (seen : List Node) :
    List (Node × Node) → Except DecodeError (List (Node × Node))
  | [] => .ok []
  | (k, v) :: rest => do
    let k ← k.value
    if seen.contains k then throw (.duplicateKey k.keyFound)
    let v ← v.value
    return (k, v) :: (← valueEntries (k :: seen) rest)

end

/-- The text of a scalar of any kind; nothing has none. -/
def readScalarText (n : Node) : Except DecodeError (Option String) := do
  match ← n.value with
  | null => return none
  | text s => return some s
  | int i => return some (toString i)
  | float x => return some x.text
  | bool b => return some (if b then "true" else "false")
  | seq _ => throw (.notScalar "a sequence")
  | map _ => throw (.notScalar "a mapping")
  | _ => throw (.notScalar "a tagged value")

end Node
end CommandSpec
