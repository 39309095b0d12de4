import CommandSpec.Decimal.Shortest

/-! Scalars as a document writes them, and what a plain one stands for: nothing, a
truth value, a number or a text. -/
namespace CommandSpec.Yaml
open Decimal

inductive ScalarStyle where
  | plain
  | singleQuoted
  | doubleQuoted
  | literal
  | folded
  deriving DecidableEq, Inhabited

structure Scalar where
  text : String
  style : ScalarStyle := .plain
  tag : Option String := none
  deriving DecidableEq, Inhabited

/-- What an untyped reader makes of a scalar. -/
inductive Resolved where
  | null
  | bool (b : Bool)
  /-- An integer of 64 bits, with or without sign. -/
  | int (i : Int)
  /-- An integer that needs up to 128 bits. -/
  | wide (i : Int)
  | float (x : Binary64)
  | text (s : String)
  deriving DecidableEq

def nullTag : String := "tag:yaml.org,2002:null"
def boolTag : String := "tag:yaml.org,2002:bool"
def intTag : String := "tag:yaml.org,2002:int"
def floatTag : String := "tag:yaml.org,2002:float"

def isNullWord (s : String) : Bool := s == "~" || s == "null" || s == "Null" || s == "NULL"

def readBool? (s : String) : Option Bool :=
  if s == "true" || s == "True" || s == "TRUE" then some true
  else if s == "false" || s == "False" || s == "FALSE" then some false
  else none

def digitOf? (c : Char) : Option Nat :=
  if c.isDigit then some (c.toNat - 0x30)
  else if 'a' ≤ c ∧ c ≤ 'z' then some (c.toNat - 0x57)
  else if 'A' ≤ c ∧ c ≤ 'Z' then some (c.toNat - 0x37)
  else none

/-- Reads one or more digits of a base. -/
def readNat? (base : Nat) (cs : List Char) : Option Nat :=
  if cs.isEmpty then none
  else cs.foldl (fun n c => do
    let n ← n
    let d ← digitOf? c
    if d < base then some (n * base + d) else none) (some 0)

/-- A zero with more digits behind it, after at most one sign: such a text is no number. -/
def isPaddedDigits (cs : List Char) : Bool :=
  let cs := match cs with
    | '-' :: rest => rest
    | '+' :: rest => rest
    | _ => cs
  match cs with
  | '0' :: d :: rest => (d :: rest).all Char.isDigit
  | _ => false

/-- Digits behind one of the lower-case base marks, or decimal digits. -/
def readMagnitude? (cs : List Char) : Option Nat :=
  match cs with
  | '0' :: 'x' :: rest => readNat? 16 rest
  | '0' :: 'o' :: rest => readNat? 8 rest
  | '0' :: 'b' :: rest => readNat? 2 rest
  | _ => if isPaddedDigits cs then none else readNat? 10 cs

/-- An integer with at most one sign in front. -/
def readInteger? (cs : List Char) : Option Int :=
  match cs with
  | '-' :: rest => (readMagnitude? rest).map fun n => -(n : Int)
  | '+' :: rest => (readMagnitude? rest).map fun n => (n : Int)
  | _ => (readMagnitude? cs).map fun n => (n : Int)

def fits64 (i : Int) : Bool := -(Nat.pow 2 63 : Nat) ≤ i && i < (Nat.pow 2 64 : Nat)
def fits128 (i : Int) : Bool := -(Nat.pow 2 127 : Nat) ≤ i && i < (Nat.pow 2 128 : Nat)

/-- A finite decimal with at most one sign, or one of the words with a dot. -/
def readFloat? (s : String) : Option Binary64 :=
  let unsigned := match s.toList with
    | '+' :: rest => rest
    | cs => cs
  let word := String.ofList unsigned
  let signs := match unsigned with
    | '+' :: _ => true
    | '-' :: _ => s.startsWith "+"
    | _ => false
  if signs then none
  else if word == ".inf" || word == ".Inf" || word == ".INF" then some (.infinite false)
  else if s == "-.inf" || s == "-.Inf" || s == "-.INF" then some (.infinite true)
  else if s == ".nan" || s == ".NaN" || s == ".NAN" then some .nan
  else
    match readWritten unsigned with
    | some w =>
      match Binary64.ofWritten w with
      | .finite negative mantissa exponent => some (.finite negative mantissa exponent)
      | _ => none
    | none => none

/-- What an integer text stands for, if it is one and not too wide. -/
def resolveInteger? (s : String) : Option Resolved :=
  match readInteger? s.toList with
  | some i => if fits64 i then some (.int i) else if fits128 i then some (.wide i) else none
  | none => none

/-- What a plain scalar without a tag stands for. -/
def resolvePlain (s : String) : Resolved :=
  if s.isEmpty || isNullWord s then .null
  else
    match readBool? s with
    | some b => .bool b
    | none =>
      match resolveInteger? s with
      | some r => r
      | none =>
        if isPaddedDigits s.toList then .text s
        else
          match readFloat? s with
          | some x => .float x
          | none => .text s

namespace Scalar

def isPlain (s : Scalar) : Bool := s.style == .plain

/-- An empty plain scalar, as left by a key without a value. -/
def isVoid (s : Scalar) : Bool := s.isPlain && s.text.isEmpty

/-- The name of a local tag, without its mark. -/
def localTag? (tag : Option String) : Option String :=
  match tag with
  | some t =>
    match t.toList with
    | '!' :: rest => some (String.ofList rest)
    | _ => none
  | none => none

/-- Whether the scalar can be read as a value of a core type: it is plain, or it is
a literal block with just that type's tag. -/
def mayBe (s : Scalar) (coreTag : String) : Bool :=
  s.isPlain || (s.style == .literal && s.tag == some coreTag)

end Scalar
end CommandSpec.Yaml
