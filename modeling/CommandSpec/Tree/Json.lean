import CommandSpec.Text.Quoted
import CommandSpec.Tree.Node

/-! Trees as JSON text, two spaces a level. Empty collections stay on one line. -/
namespace CommandSpec.Json
open Text

/-- A character inside a JSON string; only quotes, backslashes and control characters
are written otherwise than as themselves. -/
def escapeChar (c : Char) : List Char :=
  match c with
  | '"' => ['\\', '"']
  | '\\' => ['\\', '\\']
  | '\x08' => ['\\', 'b']
  | '\t' => ['\\', 't']
  | '\n' => ['\\', 'n']
  | '\x0c' => ['\\', 'f']
  | '\r' => ['\\', 'r']
  | c =>
    if c.toNat < 0x20 then
      ['\\', 'u', '0', '0', hexDigit (c.toNat / 16), hexDigit (c.toNat % 16)]
    else [c]

def quote (s : String) : String :=
  String.ofList (['"'] ++ s.toList.flatMap escapeChar ++ ['"'])

/-- A line break and the indentation behind it. -/
def newLine (level : Nat) : String := String.ofList ('\n' :: List.replicate (2 * level) ' ')

mutual

/-- The text of a node whose first line stands at `level`. -/
def text (level : Nat) : Node → String
  | .null => "null"
  | .bool b => if b then "true" else "false"
  | .int i => toString i
  | .float x => x.text
  | .text s => quote s
  | .scalar s => quote s.text
  | .seq [] => "[]"
  | .seq items => "[" ++ itemsText (level + 1) items ++ newLine level ++ "]"
  | .map [] => "\x7b\x7d"
  | .map entries => "\x7b" ++ entriesText (level + 1) entries ++ newLine level ++ "\x7d"
  | .tagged _ content => text level content
  | .fault _ => "null"

def itemsText (level : Nat) : List Node → String
  | [] => ""
  | [n] => newLine level ++ text level n
  | n :: rest => newLine level ++ text level n ++ "," ++ itemsText level rest

def entriesText (level : Nat) : List (Node × Node) → String
  | [] => ""
  | [(k, v)] => newLine level ++ text level k ++ ": " ++ text level v
  | (k, v) :: rest =>
    newLine level ++ text level k ++ ": " ++ text level v ++ "," ++ entriesText level rest

end

end CommandSpec.Json

namespace CommandSpec

/-- The tree as JSON; its keys are texts. -/
def Node.toJson (n : Node) : String := Json.text 0 n

end CommandSpec
