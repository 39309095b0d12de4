import CommandSpec.Spec.OptionSpec

/-! The types of generated fields. An option's type tag selects the scalar; the
field always holds a value when the option is required or has a default. -/
namespace CommandSpec

inductive ScalarType where
  | int | int8 | int16 | int32 | int64
  | uint | uint8 | uint16 | uint32 | uint64
  | byte | rune | float32 | float64 | bool | string | duration | time
  deriving DecidableEq, Inhabited

namespace ScalarType

def all : List ScalarType :=
  [int, int8, int16, int32, int64, uint, uint8, uint16, uint32, uint64, byte, rune, float32,
   float64, bool, string, duration, time]

/-- The tag that selects the type in a specification. -/
def tag : ScalarType → String
  | int => "int"
  | int8 => "int8"
  | int16 => "int16"
  | int32 => "int32"
  | int64 => "int64"
  | uint => "uint"
  | uint8 => "uint8"
  | uint16 => "uint16"
  | uint32 => "uint32"
  | uint64 => "uint64"
  | byte => "byte"
  | rune => "rune"
  | float32 => "float32"
  | float64 => "float64"
  | bool => "bool"
  | string => "string"
  | duration => "duration"
  | time => "time"

def ofTag? (tag : String) : Option ScalarType := all.find? (·.tag == tag)

/-- The type as written in generated code, its import being in scope. -/
def typeText : ScalarType → String
  | int | int64 => "i64"
  | int8 => "i8"
  | int16 => "i16"
  | int32 => "i32"
  | uint | uint64 => "u64"
  | uint8 | byte => "u8"
  | uint16 => "u16"
  | uint32 => "u32"
  | rune => "char"
  | float32 => "f32"
  | float64 => "f64"
  | bool => "bool"
  | string => "String"
  | duration => "Duration"
  | time => "SystemTime"

/-- The path to import before the type can be used. -/
def importPath? : ScalarType → Option String
  | duration => some "std::time::Duration"
  | time => some "std::time::SystemTime"
  | _ => none

end ScalarType

/-- Whether a field always holds a value. -/
inductive FieldKind where
  | concrete
  | optional
  deriving DecidableEq

structure FieldType where
  scalar : ScalarType
  kind : FieldKind
  deriving DecidableEq

def FieldType.typeText (t : FieldType) : String :=
  match t.kind with
  | .concrete => t.scalar.typeText
  | .optional => "Option<" ++ t.scalar.typeText ++ ">"

/-- Why no bindings can be planned for a document. -/
inductive PlanError where
  | unsupportedType (tag : String)
  | requiredWithDefault (path : String)
  | unnamedOption (path : String)
  | duplicateName (name first second : String)
  deriving DecidableEq

def PlanError.message : PlanError → String
  | unsupportedType tag => "unsupported option type: \"" ++ tag ++ "\""
  | requiredWithDefault path =>
    "option at \"" ++ path ++ "\" cannot have a default value and also be required"
  | unnamedOption path => "option at \"" ++ path ++ "\" has no name"
  | duplicateName name first second =>
    "generated name \"" ++ name ++ "\" is produced by both \"" ++ first ++ "\" and \"" ++
      second ++ "\""

/-- The path of an option as messages show it. -/
def optionPath (path : List String) (name : String) : String :=
  "/".intercalate (path ++ [name])

namespace OptionSpec

def fieldKind (o : OptionSpec) (path : List String) : Except PlanError FieldKind :=
  match o.required, o.default.isSome with
  | true, true => .error (.requiredWithDefault (optionPath path o.name))
  | false, false => .ok .optional
  | _, _ => .ok .concrete

/-- The type of the field an option gives; an unknown tag is reported before a
default that contradicts `required`. -/
def fieldType (o : OptionSpec) (path : List String) : Except PlanError FieldType :=
  match ScalarType.ofTag? o.typeTag with
  | none => .error (.unsupportedType o.typeTag)
  | some scalar => (o.fieldKind path).map fun kind => ⟨scalar, kind⟩

end OptionSpec
end CommandSpec
