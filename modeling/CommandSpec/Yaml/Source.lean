import CommandSpec.Yaml.Scan
import CommandSpec.Yaml.Skeleton

/-! Document texts as trees. An alias stands for the node with its anchor; what nests too
deep, or repeats too much, becomes a fault that matters only to readers that look at it. -/
namespace CommandSpec.Yaml

/-- The first document of a text, and what is wrong behind its root. -/
structure Source where
  root : Node
  fault : Option DecodeError := none
  deriving Inhabited

/-- How deep collections may nest. -/
def depthLimit : Nat := 128

mutual

/-- Whether the text broke off inside. -/
def Skeleton.cut? : Skeleton → Option SourceFault
  | .cut f => some f
  | .seq _ items | .map _ items => Skeleton.cutAmong? items
  | _ => none

def Skeleton.cutAmong? : List Skeleton → Option SourceFault
  | [] => none
  | n :: rest => n.cut?.or (Skeleton.cutAmong? rest)

end

/-- For one depth, the nodes with anchor numbers and how many aliases each replaces. -/
abbrev AnchorTable := List (Nat × Node × Nat)

/-- Keys and values in turn as entries; a cut key is its own value. -/
def pairUp : List Node → List (Node × Node)
  | [] => []
  | [k] => [(k, k)]
  | k :: v :: rest => (k, v) :: pairUp rest

private def withTag (tag : Option String) (n : Node) : Node :=
  match Scalar.localTag? tag with
  | some t => .tagged t n
  | none => n

mutual

/-- The tree of a node and the number of aliases replaced in it. There is a table for each
depth that is left, the greatest first. `limit` bounds the replaced aliases of each alias and of
each sequence. The library has one count for all of a document instead, which goes up with each
alias that a reader follows. So a document that exceeds the limit only with the entries of a map
together is taken here and refused there, and one that exceeds it only with aliases that no reader
follows the other way round; where both refuse, the fault stands at the end of the alias or
sequence, not at the alias that was one too many. -/
def Skeleton.expand (limit : Nat) (tables : List AnchorTable) : Skeleton → Node × Nat
  | .alias number =>
    match (tables.headD []).lookup number with
    | some (n, aliases) =>
      if aliases + 1 > limit then (.fault .tooManyRepetitions, 0) else (n, aliases + 1)
    | none => (.fault .tooDeep, 0)
  | .scalar s => (.scalar s, 0)
  | .seq tag items =>
    match tables.tail with
    | [] => (.fault ((Skeleton.cutAmong? items).getD .tooDeep), 0)
    | lower =>
      let (nodes, aliases) := Skeleton.expandAll limit lower items
      if aliases > limit then
        (withTag tag (.seq (nodes ++ [.fault .tooManyRepetitions])), aliases)
      else (withTag tag (.seq nodes), aliases)
  | .map tag items =>
    match tables.tail with
    | [] => (.fault ((Skeleton.cutAmong? items).getD .tooDeep), 0)
    | lower =>
      let (nodes, aliases) := Skeleton.expandAll limit lower items
      (withTag tag (.map (pairUp nodes)), aliases)
  | .cut f => (.fault f, 0)

def Skeleton.expandAll (limit : Nat) (tables : List AnchorTable) :
    List Skeleton → List Node × Nat
  | [] => ([], 0)
  | n :: rest =>
    let (node, aliases) := n.expand limit tables
    let (nodes, more) := Skeleton.expandAll limit tables rest
    (node :: nodes, aliases + more)

end

/-- Tables for `depth` and all depths below it. Where a number was given twice, the node
that starts last has it. -/
def anchorTables (limit : Nat) (anchored : List Anchored) : Nat → List AnchorTable
  | 0 => [table []]
  | depth + 1 =>
    let lower := anchorTables limit anchored depth
    table lower :: lower
where
  table (lower : List AnchorTable) : AnchorTable :=
    anchored.map fun a => (a.number, a.node.expand limit ([] :: lower))

/-- Whether `a` is not outdone by a node of the same number that starts later. -/
def isLast (anchored : List Anchored) (a : Anchored) : Bool :=
  !anchored.any fun b => b.number == a.number && b.start > a.start

/-- The tree of a finished builder. -/
def Builder.tree (b : Builder) : Node :=
  let limit := 100 * b.count
  let anchored := b.anchored.filter (isLast b.anchored)
  let tables :=
    if anchored.isEmpty then List.replicate (depthLimit + 1) []
    else anchorTables limit anchored depthLimit
  ((b.root.getD (.cut .malformed)).expand limit tables).1

/-- Builds the first document from events; `complete` says that they reach the end of the
stream. -/
def Source.ofEvents (complete : Bool) (b : Builder) : List Event → Source
  | [] => ⟨(b.stop .malformed).tree, some (.source .malformed)⟩
  | .documentEnd :: rest =>
    ⟨b.tree, if rest.isEmpty && complete then none else some .manyDocuments⟩
  | e :: rest =>
    match b.take e with
    | some b => Source.ofEvents complete b rest
    | none => ⟨(b.stop .unknownAnchor).tree, some (.source .unknownAnchor)⟩

/-- The first document of a text. A text without a document gives an empty scalar. -/
def Source.ofText (text : String) : Source :=
  match events (tokens text.toList) with
  | ([], true) => ⟨.scalar { text := "" }, none⟩
  | (es, complete) => Source.ofEvents complete {} es

/-- Reads the root; what is wrong behind it counts only if the root can be read. -/
def Source.decode (s : Source) (read : Node → Except DecodeError α) : Except DecodeError α := do
  let a ← read s.root
  match s.fault with
  | some e => throw e
  | none => return a

end CommandSpec.Yaml
