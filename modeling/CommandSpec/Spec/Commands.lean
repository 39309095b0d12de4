import CommandSpec.Spec.OptionSpec

/-! The command tree. A forest holds sibling commands in ascending name order,
each with the forest of its own sub-commands. -/
namespace CommandSpec

/-- A success behind a step is a success of both. -/
theorem bind_eq_ok {x : Except ε α} {f : α → Except ε β} {b : β} (h : (x >>= f) = .ok b) :
    ∃ a, x = .ok a ∧ f a = .ok b := by
  cases x with
  | error e => cases h
  | ok a => exact ⟨a, rfl, h⟩

/-- What a command says of itself, apart from its name and its sub-commands. -/
structure Declaration where
  usage : Option String := none
  description : Option String := none
  options : List OptionEntry := []
  minArgs : UInt32 := 0
  maxArgs : UInt32 := 0
  deriving DecidableEq, Inhabited

inductive CommandForest where
  | nil
  | node (name : String) (declaration : Declaration) (children siblings : CommandForest)
  deriving DecidableEq, Inhabited

namespace CommandForest

def isEmpty : CommandForest → Bool
  | nil => true
  | node .. => false

/-- The number of commands on the top level. -/
def width : CommandForest → Nat
  | nil => 0
  | node _ _ _ siblings => siblings.width + 1

/-- The number of commands on all levels. -/
def count : CommandForest → Nat
  | nil => 0
  | node _ _ children siblings => 1 + children.count + siblings.count

/-- Puts a command in its place among its siblings; one of the same name gives way. -/
def insert (forest : CommandForest) (name : String) (declaration : Declaration)
    (children : CommandForest) : CommandForest :=
  match forest with
  | nil => node name declaration children nil
  | node other kept below siblings =>
    if name < other then node name declaration children (node other kept below siblings)
    else if name = other then node name declaration children siblings
    else node other kept below (siblings.insert name declaration children)

/-- The first name, if there is one, comes after `bound`. -/
def Above (bound : String) : CommandForest → Prop
  | nil => True
  | node name .. => bound < name

/-- Names ascend strictly on every level. -/
def Ordered : CommandForest → Prop
  | nil => True
  | node name _ children siblings => siblings.Above name ∧ children.Ordered ∧ siblings.Ordered

theorem Ordered.insert {name : String} {declaration : Declaration}
    {children forest : CommandForest} (hc : children.Ordered) (hf : forest.Ordered) :
    (forest.insert name declaration children).Ordered ∧
      ∀ bound, bound < name → forest.Above bound →
        (forest.insert name declaration children).Above bound := by
  induction forest with
  | nil => exact ⟨⟨trivial, hc, trivial⟩, fun _ h _ => h⟩
  | node other kept below siblings _ ih =>
    obtain ⟨habove, hbelow, hsiblings⟩ := hf
    unfold CommandForest.insert
    split
    · rename_i hlt
      exact ⟨⟨hlt, hc, habove, hbelow, hsiblings⟩, fun _ h _ => h⟩
    · split
      · rename_i heq
        exact ⟨⟨heq ▸ habove, hc, hsiblings⟩, fun _ h _ => h⟩
      · rename_i hlt hne
        have hother : other < name :=
          Decidable.byContradiction fun hn => hne (String.le_antisymm hn hlt)
        exact ⟨⟨(ih hsiblings).2 _ hother habove, hbelow, (ih hsiblings).1⟩, fun _ _ h => h⟩

/-- Changes every declaration, a command before its sub-commands and those before its
later siblings, up to the first failure. -/
def traverse (f : Declaration → Except ε Declaration) : CommandForest → Except ε CommandForest
  | nil => .ok nil
  | node name declaration children siblings => do
    let declaration ← f declaration
    let children ← children.traverse f
    let siblings ← siblings.traverse f
    return node name declaration children siblings

theorem traverse_node {f : Declaration → Except ε Declaration} {name : String}
    {d : Declaration} {c s g : CommandForest} (h : (node name d c s).traverse f = .ok g) :
    ∃ d' c' s', f d = .ok d' ∧ c.traverse f = .ok c' ∧ s.traverse f = .ok s' ∧
      g = node name d' c' s' := by
  obtain ⟨d', hd, h⟩ := bind_eq_ok h
  obtain ⟨c', hc, h⟩ := bind_eq_ok h
  obtain ⟨s', hs, h⟩ := bind_eq_ok h
  cases h
  exact ⟨d', c', s', hd, hc, hs, rfl⟩

theorem Above.traverse {f : Declaration → Except ε Declaration} {bound : String}
    {c g : CommandForest} (h : c.traverse f = .ok g) (hc : c.Above bound) : g.Above bound := by
  cases c with
  | nil => cases h; trivial
  | node =>
    obtain ⟨_, _, _, _, _, _, rfl⟩ := traverse_node h
    exact hc

theorem Ordered.traverse {f : Declaration → Except ε Declaration} {c g : CommandForest}
    (h : c.traverse f = .ok g) (hc : c.Ordered) : g.Ordered := by
  induction c generalizing g with
  | nil => cases h; trivial
  | node name d c s ihc ihs =>
    obtain ⟨_, _, _, _, hc', hs', rfl⟩ := traverse_node h
    exact ⟨hc.1.traverse hs', ihc hc' hc.2.1, ihs hs' hc.2.2⟩

end CommandForest

/-- Commands by name. -/
structure Commands where
  forest : CommandForest := .nil
  ordered : forest.Ordered := by trivial
  deriving DecidableEq

structure Command extends Declaration where
  commands : Commands := {}
  deriving DecidableEq

instance : Inhabited Commands := ⟨{}⟩
instance : Inhabited Command := ⟨{}⟩

/-- A branch has sub-commands; a leaf has none. -/
def Command.isBranch (c : Command) : Bool := !c.commands.forest.isEmpty

namespace Commands

def isEmpty (c : Commands) : Bool := c.forest.isEmpty

def size (c : Commands) : Nat := c.forest.width

def insert (c : Commands) (name : String) (command : Command) : Commands :=
  ⟨c.forest.insert name command.toDeclaration command.commands.forest,
    (CommandForest.Ordered.insert command.commands.ordered c.ordered).1⟩

/-- The command of this name on the top level. -/
def find? (c : Commands) (name : String) : Option Command :=
  go c.forest c.ordered
where
  go : (forest : CommandForest) → forest.Ordered → Option Command
    | .nil, _ => none
    | .node other declaration children siblings, h =>
      if other = name then some { declaration with commands := ⟨children, h.2.1⟩ }
      else go siblings h.2.2

def traverse (f : Declaration → Except ε Declaration) (c : Commands) : Except ε Commands :=
  match h : c.forest.traverse f with
  | .ok forest => .ok ⟨forest, c.ordered.traverse h⟩
  | .error e => .error e

/-- The command at a path of names from the top level down. -/
def findPath? (c : Commands) : List String → Option Command
  | [] => none
  | [name] => c.find? name
  | name :: rest => (c.find? name).bind fun command => command.commands.findPath? rest

/-- Changes the command at a path, if there is one. -/
def modify? (f : Command → Command) (c : Commands) : List String → Option Commands
  | [] => none
  | [name] => (c.find? name).map fun command => c.insert name (f command)
  | name :: rest => do
    let command ← c.find? name
    let commands ← command.commands.modify? f rest
    return c.insert name { command with commands }

end Commands
end CommandSpec
