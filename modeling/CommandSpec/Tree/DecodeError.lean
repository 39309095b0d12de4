import CommandSpec.Spec.OptionSpec
import CommandSpec.Text.Quoted
import CommandSpec.Tree.Node

/-! The texts of decoding errors in finished trees. A text that is read as a tree has places
besides, which are not modelled, and faults of its own; what is said of it is left to the library
that reads it (`CommandLine.LibraryTexts`). -/
namespace CommandSpec

def Found.shown : Found → String
  | unit => "unit value"
  | bool b => "boolean \x60" ++ (if b then "true" else "false") ++ "\x60"
  | int i => "integer \x60" ++ toString i ++ "\x60"
  | wide i => "integer \x60" ++ toString i ++ "\x60 as " ++ (if i < 0 then "i128" else "u128")
  | float x => "floating point \x60" ++ x.plainText ++ "\x60"
  | text s => "string " ++ Text.quote s
  | seq => "sequence"
  | map => "map"
  | enum => "enum"

/-- How a repeated key is pointed out. -/
def Found.asKey : Found → String
  | unit => "with null key"
  | bool b => "with key \x60" ++ (if b then "true" else "false") ++ "\x60"
  | int i | wide i => "with key " ++ toString i
  | float x => "with key " ++ x.text
  | text s => "with key " ++ Text.quote s
  | seq | map | enum => "in YAML map"

/-- What is wrong with a tree. -/
def DecodeError.message : DecodeError → String
  | invalidType found expected => "invalid type: " ++ found.shown ++ ", expected " ++ expected
  | invalidValue found expected => "invalid value: " ++ found.shown ++ ", expected " ++ expected
  | tooLong length fields =>
    "invalid length " ++ toString length ++ ", expected " ++
      (if fields = 1 then "1 element" else toString fields ++ " elements") ++ " in sequence"
  | duplicateField name => "duplicate field \x60" ++ name ++ "\x60"
  | duplicateKey key => "duplicate entry " ++ key.asKey
  | emptyTag => "empty YAML tag is not allowed"
  | taggedField => "untagged and internally tagged enums do not support enum input"
  | invalidReference key =>
    "invalid reference \"" ++ key ++ "\": expected \"" ++ referencePrefix ++ "<name>\""
  | componentReference name key =>
    "component option \"" ++ name ++ "\" cannot itself be a reference (" ++ key ++ ")"
  | notScalar kind => "expected a scalar value, found " ++ kind
  -- only texts have these
  | source _ | manyDocuments => ""

end CommandSpec
