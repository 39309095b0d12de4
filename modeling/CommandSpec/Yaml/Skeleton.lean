import CommandSpec.Tree.Node
import CommandSpec.Yaml.Event

/-! The nodes of a document as its text writes them: aliases not yet replaced, and a cut
where the text cannot be read on. -/
namespace CommandSpec.Yaml

inductive Skeleton where
  /-- The node that got this anchor number. -/
  | alias (number : Nat)
  | scalar (s : Scalar)
  | seq (tag : Option String) (items : List Skeleton)
  /-- Keys and values in turn. -/
  | map (tag : Option String) (items : List Skeleton)
  | cut (f : SourceFault)
  deriving Inhabited

/-- A collection whose end was not met yet. -/
structure Frame where
  isMap : Bool
  tag : Option String
  /-- Its anchor number, and the number of the event that starts it. -/
  anchor : Option (Nat × Nat)
  /-- Its items so far, the last one first. -/
  items : List Skeleton := []
  deriving Inhabited

/-- The node an anchor number was given to, and the number of the event that starts it. -/
structure Anchored where
  number : Nat
  start : Nat
  node : Skeleton
  deriving Inhabited

structure Builder where
  frames : List Frame := []
  root : Option Skeleton := none
  /-- The number last given to each anchor name. -/
  numbers : List (String × Nat) := []
  anchored : List Anchored := []
  /-- The number of events taken in. -/
  count : Nat := 0
  deriving Inhabited

namespace Builder

/-- Puts a complete node where it belongs. -/
def place (b : Builder) (n : Skeleton) : Builder :=
  match b.frames with
  | f :: frames => { b with frames := { f with items := n :: f.items } :: frames }
  | [] => { b with root := some n }

/-- Gives a number to an anchor name. A new name gets the number of names known before,
and so does a name that is used again. -/
def number (b : Builder) (name : Option String) : Option (Nat × Nat) × Builder :=
  match name with
  | none => (none, b)
  | some name =>
    let next := b.numbers.length
    let others := b.numbers.filter (·.1 != name)
    (some (next, b.count), { b with numbers := (name, next) :: others })

def note (b : Builder) (anchor : Option (Nat × Nat)) (n : Skeleton) : Builder :=
  match anchor with
  | none => b
  | some (number, start) => { b with anchored := ⟨number, start, n⟩ :: b.anchored }

private def close (b : Builder) : Builder :=
  match b.frames with
  | f :: frames =>
    let items := f.items.reverse
    let n := if f.isMap then Skeleton.map f.tag items else .seq f.tag items
    ({ b with frames }.note f.anchor n).place n
  | [] => b

/-- Closes what is open, with a cut as the last item of the innermost collection. -/
def stop (b : Builder) (f : SourceFault) : Builder :=
  go b.frames.length <|
    if b.frames.isEmpty && b.root.isSome then b else b.place (.cut f)
where
  go : Nat → Builder → Builder
    | 0, b => b
    | n + 1, b => go n b.close

def counted (b : Builder) : Builder := { b with count := b.count + 1 }

/-- Takes in one event; `none` for an alias without its anchor. -/
def take (b : Builder) (e : Event) : Option Builder :=
  match e with
  | .alias name => (b.numbers.lookup name).map fun n => (b.place (.alias n)).counted
  | .scalar s anchor =>
    let (anchor, b) := b.number anchor
    some ((b.note anchor (.scalar s)).place (.scalar s)).counted
  | .seqStart tag anchor =>
    let (anchor, b) := b.number anchor
    some { b with frames := { isMap := false, tag, anchor } :: b.frames }.counted
  | .mapStart tag anchor =>
    let (anchor, b) := b.number anchor
    some { b with frames := { isMap := true, tag, anchor } :: b.frames }.counted
  | .seqEnd | .mapEnd => some b.close.counted
  | .documentStart | .documentEnd => some b

end Builder
end CommandSpec.Yaml
