/-! Options of a command: either spelled out in place or named by a reference to
a reusable definition. -/
namespace CommandSpec

/-- A primary flag name and its aliases. -/
structure FlagBinding where
  name : String := ""
  aliases : List String := []
  deriving DecidableEq, Inhabited

def FlagBinding.isEmpty (f : FlagBinding) : Bool := f.name.isEmpty && f.aliases.isEmpty

structure OptionSpec where
  name : String := ""
  typeTag : String := ""
  description : Option String := none
  usage : Option String := none
  /-- The environment variable, empty when there is none. -/
  env : String := ""
  flag : FlagBinding := {}
  /-- The default value in its textual form. -/
  default : Option String := none
  required : Bool := false
  deriving DecidableEq, Inhabited

/-- Names an option that has no name of its own. -/
def OptionSpec.named (o : OptionSpec) (name : String) : OptionSpec :=
  if o.name.isEmpty then { o with name } else o

inductive OptionEntry where
  | inline (option : OptionSpec)
  | reference (key : String)
  deriving DecidableEq, Inhabited

namespace OptionEntry

def option? : OptionEntry → Option OptionSpec
  | inline o => some o
  | reference _ => none

def reference? : OptionEntry → Option String
  | inline _ => none
  | reference key => some key

def isReference (e : OptionEntry) : Bool := e.reference?.isSome

/-- Names an inline option that has no name; a reference stays as it is. -/
def named : OptionEntry → String → OptionEntry
  | inline o, name => inline (o.named name)
  | reference key, _ => reference key

end OptionEntry

def referencePrefix : String := "#/components/options/"

/-- The key under which references find the component option of this name. -/
def referenceKey (name : String) : String := referencePrefix ++ name

/-- A reference names exactly one component: something follows the fixed start,
and it is not a path. -/
def isReferenceKey (key : String) : Bool :=
  let start := referencePrefix.toList
  let cs := key.toList
  start.isPrefixOf cs && !(cs.drop start.length).isEmpty && !(cs.drop start.length).contains '/'

end CommandSpec
