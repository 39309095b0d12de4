import CommandSpec.Tree.Node
import CommandSpec.Yaml.Quoting

/-! Trees as block style text. A list under a key is not indented; a collection behind
a dash or behind the mark of a long key starts on the same line. -/
namespace CommandSpec.Yaml

/-- Goes to the next line, unless the text ended one, and indents. -/
def onNewLine (indent : Nat) (s : String) : String :=
  let lineEnd := if endsWithBreak s.toList then "" else "\n"
  s ++ lineEnd ++ String.ofList (spaces indent)

/-- A key stands before its colon if it is one line of at most 128 bytes; a longer one
is marked. -/
def isShortKey : Node → Bool
  | .text s => !s.toList.any isBreak && s.utf8ByteSize ≤ 128
  | .seq items => items.isEmpty
  | .map entries => entries.isEmpty
  | _ => true

/-- The indentation of a value's further lines: that of its key for a list behind a short
key, else one level more. -/
def valueIndent (indent : Nat) (k v : Node) : Nat :=
  match isShortKey k, v with
  | true, .seq (_ :: _) => indent
  | _, _ => indent + 2

/-- A key and its value, given their texts. A collection that is not empty starts on the
line below a short key. -/
def entryText (indent : Nat) (k v : Node) (key value : String) : String :=
  if isShortKey k then
    match v with
    | .seq (_ :: _) | .map (_ :: _) =>
      onNewLine (valueIndent indent k v) (key ++ ":") ++ value
    | _ => key ++ ": " ++ value
  else onNewLine indent ("? " ++ key) ++ ": " ++ value

mutual

/-- The text of a node behind an indentation that is already written. -/
def blockText (indent : Nat) : Node → String
  | .null => "null"
  | .bool b => if b then "true" else "false"
  | .int i => toString i
  | .float x => x.text
  | .text s => scalarText indent s
  | .scalar s => scalarText indent s.text
  | .seq [] => "[]"
  | .seq items => itemsText indent items
  | .map [] => "\x7b\x7d"
  | .map entries => entriesText indent entries
  | .tagged _ content => blockText indent content
  | .fault _ => "null"

def itemsText (indent : Nat) : List Node → String
  | [] => ""
  | [n] => "- " ++ blockText (indent + 2) n
  | n :: rest => onNewLine indent ("- " ++ blockText (indent + 2) n) ++ itemsText indent rest

def entriesText (indent : Nat) : List (Node × Node) → String
  | [] => ""
  | [(k, v)] =>
    entryText indent k v (blockText (indent + 2) k) (blockText (valueIndent indent k v) v)
  | (k, v) :: rest =>
    onNewLine indent (entryText indent k v (blockText (indent + 2) k)
      (blockText (valueIndent indent k v) v)) ++ entriesText indent rest

end

end CommandSpec.Yaml

namespace CommandSpec

/-- The tree as a text of whole lines. -/
def Node.toYaml (n : Node) : String := Yaml.onNewLine 0 (Yaml.blockText 0 n)

end CommandSpec
