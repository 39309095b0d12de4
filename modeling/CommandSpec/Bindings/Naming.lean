import CommandSpec.Text.Alphanumeric
import CommandSpec.Text.LetterCase

/-! Names in the generated code, derived from command paths and option names.
A type name is the title-cased path; a method name snake-cases each segment by
itself, so that segments stay apart. -/
namespace CommandSpec.Naming
open Text

/-- The maximal runs of letters and digits. -/
def words : List Char → List (List Char)
  | [] => []
  | c :: rest =>
    if isAlphanumeric c then
      if rest.head?.any isAlphanumeric then
        match words rest with
        | [] => [[c]]
        | word :: more => (c :: word) :: more
      else [c] :: words rest
    else words rest

/-- The first letter in upper case, the others as they are. -/
def capitalize : List Char → List Char
  | [] => []
  | c :: rest => toUpper c ++ rest

def titleCase (segment : String) : String :=
  String.ofList ((words segment.toList).flatMap capitalize)

def startsWithDigit (cs : List Char) : Bool := cs.head?.any Char.isDigit

/-- The type identifier of the command at `path`. -/
def nodeIdentifier (path : List String) : String :=
  let identifier := path.flatMap fun segment => (titleCase segment).toList
  String.ofList (if startsWithDigit identifier then '_' :: identifier else identifier)

/-- Ends the current word, if there is one, in a text written backwards. -/
def separate (written : List Char) : List Char :=
  match written with
  | [] => []
  | '_' :: _ => written
  | _ => '_' :: written

/-- Whether an upper-case character starts a word: after a lower-case character or
an ASCII digit, or as the last of several capitals before a lower-case character. -/
def startsWord (before : Option Char) (c : Char) (after : Option Char) : Bool :=
  isUpper c && before.any fun p => isLower p || p.isDigit || (isUpper p && after.any isLower)

/-- Snake case written backwards: `before` is the character just read. -/
def snakeCaseLoop (before : Option Char) (written : List Char) : List Char → List Char
  | [] => written
  | c :: rest =>
    if isAlphanumeric c then
      let written := if startsWord before c rest.head? then separate written else written
      snakeCaseLoop (some c) ((toLower c).reverse ++ written) rest
    else snakeCaseLoop (some c) (separate written) rest

def snakeCase (ident : String) : String :=
  String.ofList ((snakeCaseLoop none [] ident.toList).dropWhile (· == '_')).reverse

/-- The segments in snake case, empty ones dropped, joined by `_`. -/
def pathSnakeCase (path : List String) : String :=
  "_".intercalate ((path.map snakeCase).filter (!·.isEmpty))

/-- Words that serve as names only in raw form. -/
def keywords : List String :=
  ["abstract", "as", "async", "await", "become", "box", "break", "const", "continue", "do",
   "dyn", "else", "enum", "extern", "false", "final", "fn", "for", "gen", "if", "impl", "in",
   "let", "loop", "macro", "match", "mod", "move", "mut", "override", "priv", "pub", "ref",
   "return", "static", "struct", "trait", "true", "try", "type", "typeof", "unsafe", "unsized",
   "use", "virtual", "where", "while", "yield"]

/-- Words that do not serve as names even in raw form. -/
def reservedWords : List String := ["crate", "self", "super", "Self"]

/-- Makes a name usable as an identifier: a reserved word gets a `_` behind it, a
keyword becomes raw, a leading digit gets a `_` before it. -/
def escapeIdentifier (name : String) : String :=
  if reservedWords.contains name then name ++ "_"
  else if keywords.contains name then "r#" ++ name
  else if startsWithDigit name.toList then "_" ++ name
  else name

/-- The method name of the command at `path`, `suffix` included when there is one. -/
def methodName (path : List String) (suffix : Option String) : String :=
  let base := pathSnakeCase path
  match suffix with
  | none => escapeIdentifier base
  | some suffix =>
    if base.isEmpty then escapeIdentifier suffix else escapeIdentifier (base ++ "_" ++ suffix)

def fieldName (optionName : String) : String := escapeIdentifier (snakeCase optionName)

end CommandSpec.Naming
