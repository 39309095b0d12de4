import CommandSpec.Yaml.Scalar

/-! Document trees. A leaf is either a finished value or a scalar still as a text wrote
it, which typed readers and untyped ones take differently. -/
namespace CommandSpec
open Decimal Yaml

/-- Why a text gives no more, or no finite, tree at some place. -/
inductive SourceFault where
  | malformed
  | unknownAnchor
  | tooDeep
  | tooManyRepetitions
  deriving DecidableEq, Inhabited

/-- Whether nothing can be read behind the fault, even by a reader that skips it. -/
def SourceFault.endsSource : SourceFault → Bool
  | malformed | unknownAnchor => true
  | tooDeep | tooManyRepetitions => false

inductive Node where
  | null
  | bool (b : Bool)
  | int (i : Int)
  | float (x : Binary64)
  | text (s : String)
  | scalar (s : Scalar)
  | seq (items : List Node)
  | map (entries : List (Node × Node))
  /-- A node with a local tag. -/
  | tagged (tag : String) (content : Node)
  | fault (f : SourceFault)
  deriving Inhabited, BEq

/-- What a reader found where it expected something else. -/
inductive Found where
  | unit
  | bool (b : Bool)
  | int (i : Int)
  | wide (i : Int)
  | float (x : Binary64)
  | text (s : String)
  | seq
  | map
  | enum
  deriving DecidableEq

inductive DecodeError where
  | invalidType (found : Found) (expected : String)
  | invalidValue (found : Found) (expected : String)
  /-- A record written as a sequence has more items than fields. -/
  | tooLong (length fields : Nat)
  | duplicateField (name : String)
  | duplicateKey (key : Found)
  | emptyTag
  /-- A local tag where fields are collected before they are decoded. -/
  | taggedField
  | invalidReference (key : String)
  | componentReference (name key : String)
  | notScalar (kind : String)
  | source (f : SourceFault)
  | manyDocuments
  deriving DecidableEq

end CommandSpec
