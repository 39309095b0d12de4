import CommandSpec.Decode.Config
import CommandSpec.Decode.Document
import CommandSpec.Spec.Bounds
import CommandSpec.Spec.Resolve
import CommandSpec.Tree.DecodeError
import CommandSpec.Yaml.Source

/-! Loading documents: decode, check the argument bounds, resolve references. The first of
these to fail decides the error. -/
namespace CommandSpec

inductive LoadError where
  | io (text : String)
  | decode (e : DecodeError)
  | validation (errors : List FieldError)
  | undefinedReference (key : String)
  deriving DecidableEq

/-- The text of an error; `undecoded` says why an input does not decode. -/
def LoadError.message (e : LoadError) (undecoded : DecodeError → String := DecodeError.message) :
    String :=
  match e with
  | io text => "I/O error: " ++ text
  | decode e => "decode error: " ++ undecoded e
  | validation _ => "failed to validate optionapi spec"
  | undefinedReference key => "undefined reference: '" ++ key ++ "'"

def LoadError.fieldErrors : LoadError → List FieldError
  | validation errors => errors
  | _ => []

/-- Whether a text holds nothing but blank lines, comments and document markers. -/
def isBlankDocument (text : String) : Bool :=
  (Text.lines text.toList).all fun line =>
    let line := Text.trim line
    line.isEmpty || line.head? == some '#' || line == "---".toList || line == "...".toList

/-- A blank text is an empty document. -/
def Document.ofText (text : String) : Except DecodeError Document :=
  if isBlankDocument text then .ok {} else (Yaml.Source.ofText text).decode Document.ofNode

/-- Why bytes cannot be read as a text. -/
def notText : String := "stream did not contain valid UTF-8"

/-- The bytes of a whole text. -/
def readText (bytes : ByteArray) : Except LoadError String :=
  match String.fromUTF8? bytes with
  | some s => .ok s
  | none => .error (.io notText)

/-- Checks and resolves a decoded document. -/
def Document.complete (d : Document) : Except LoadError Document := do
  d.validate.mapError .validation
  d.resolve.mapError .undefinedReference

def Document.parse (text : String) : Except LoadError Document := do
  let d ← (Document.ofText text).mapError .decode
  d.complete

/-- The document of what a reader gives, which is all bytes or an error of its own. The document
is neither checked nor resolved. -/
def Document.ofReader (input : Except String ByteArray) : Except LoadError Document := do
  let bytes ← input.mapError .io
  let text ← readText bytes
  (ofText text).mapError .decode

/-- The document of what a reader gives, checked and resolved. -/
def Document.parseReader (input : Except String ByteArray) : Except LoadError Document := do
  let bytes ← input.mapError .io
  let text ← readText bytes
  parse text

def Config.ofText (text : String) : Except DecodeError Config :=
  (Yaml.Source.ofText text).decode Config.ofNode

/-- The config of a file's content. -/
def Config.ofBytes (bytes : ByteArray) : Except DecodeError Config :=
  match String.fromUTF8? bytes with
  | some text => ofText text
  | none => .error (.source .malformed)

end CommandSpec
