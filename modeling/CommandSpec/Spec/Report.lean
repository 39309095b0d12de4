/-! Messages with the path of the node they concern. A scope says where a message goes; a tracker
around a scope passes it on and remembers in a flag that there was one. -/
namespace CommandSpec

structure FieldError where
  /-- Field names from the root down; empty for the root. -/
  path : List String
  message : String
  deriving DecidableEq, Inhabited

def FieldError.dottedPath (e : FieldError) : String := ".".intercalate e.path

def FieldError.text (e : FieldError) : String :=
  if e.path.isEmpty then e.message else e.dottedPath ++ ": " ++ e.message

/-- All messages in the order they came, and the flags of the trackers by number. -/
structure Report where
  errors : List FieldError := []
  flags : List Bool := []
  deriving DecidableEq, Inhabited

namespace Report

def isRaised (r : Report) (flag : Nat) : Bool := r.flags.getD flag false

def raise (r : Report) (flag : Nat) : Report := { r with flags := r.flags.set flag true }

/-- One more flag, not raised; it has the number of those before it. -/
def addFlag (r : Report) : Report := { r with flags := r.flags ++ [false] }

end Report

inductive Scope where
  /-- A place in the report; the empty path is the report itself. -/
  | place (path : List String)
  /-- A tracker around a scope, with its own flag. One that was opened from another tracker
  belongs to the base of that one and knows its flag; others are bases themselves. -/
  | tracker (flag : Nat) (base : Option Nat) (inner : Scope)
  deriving DecidableEq, Inhabited

namespace Scope

def root : Scope := place []

/-- Trackers raise their own flag and that of their base before they pass a message on. -/
def emit : Scope → String → Report → Report
  | place path, message, r => { r with errors := r.errors ++ [⟨path, message⟩] }
  | tracker flag base inner, message, r =>
    inner.emit message ((r.raise flag).raise (base.getD flag))

/-- The scope of a field. Around the field of what it wraps, a tracker puts a new one of the
same base. -/
def field : Scope → String → Report → Scope × Report
  | place path, name, r => (place (path ++ [name]), r)
  | tracker flag base inner, name, r =>
    let (below, r) := inner.field name r
    (tracker r.flags.length (some (base.getD flag)) below, r.addFlag)

/-- A tracker around the scope that is its own base. -/
def track (s : Scope) (r : Report) : Scope × Report :=
  (tracker r.flags.length none s, r.addFlag)

/-- Whether the scope is a tracker whose flag is raised. -/
def isInvalid : Scope → Report → Bool
  | place _, _ => false
  | tracker flag _ _, r => r.isRaised flag

end Scope

/-- One action on a growing list of scopes; scopes are named by their position. -/
inductive ScopeStep where
  | emit (scope : Nat) (message : String)
  | enter (scope : Nat) (name : String)
  | track (scope : Nat)
  deriving DecidableEq

/-- A report and the scopes opened on it. -/
structure ScopeSession where
  report : Report := {}
  scopes : List Scope := [.root]
  deriving Inhabited

namespace ScopeSession

/-- Does one step; a step on a scope that was never opened changes nothing. -/
def step (s : ScopeSession) : ScopeStep → ScopeSession
  | .emit scope message =>
    match s.scopes[scope]? with
    | some at' => { s with report := at'.emit message s.report }
    | none => s
  | .enter scope name =>
    match s.scopes[scope]? with
    | some outer =>
      let (inner, report) := outer.field name s.report
      ⟨report, s.scopes ++ [inner]⟩
    | none => s
  | .track scope =>
    match s.scopes[scope]? with
    | some outer =>
      let (tracker, report) := outer.track s.report
      ⟨report, s.scopes ++ [tracker]⟩
    | none => s

/-- The scopes opened by tracking, by number, and whether each is invalid. -/
def trackedFlags (s : ScopeSession) : List (Nat × Bool) :=
  s.scopes.zipIdx.filterMap fun
    | (.tracker flag none _, number) => some (number, s.report.isRaised flag)
    | _ => none

end ScopeSession
end CommandSpec
