/-! Places in a text, and the kinds of characters that structure it. -/
namespace CommandSpec.Yaml

/-- A place as counts of characters before it, lines before it, and characters before it
on its line. -/
structure Mark where
  index : Nat := 0
  line : Nat := 0
  column : Nat := 0
  deriving DecidableEq, Inhabited

/-- The rest of a text and the place where it starts. -/
structure Cursor where
  rest : List Char
  mark : Mark := {}
  /-- Above the number of characters left: a bound for loops that read some each time. -/
  limit : Nat
  deriving Inhabited

/-- Line feed, carriage return, next line, line separator and paragraph separator. -/
def isBreak (c : Char) : Bool :=
  c == '\n' || c == '\r' || c.toNat == 0x85 || c.toNat == 0x2028 || c.toNat == 0x2029

def isSpace (c : Char) : Bool := c == ' ' || c == '\t'

/-- What a line break reads as: the separators stay, all others are line feeds. -/
def breakText (c : Char) : Char :=
  if c.toNat == 0x2028 || c.toNat == 0x2029 then c else '\n'

def isWordChar (c : Char) : Bool := c.isAlphanum || c == '_' || c == '-'

def byteOrderMark : Char := Char.ofNat 0xfeff

/-- Characters a document may hold unescaped. -/
def isAllowed (c : Char) : Bool :=
  let n := c.toNat
  n == 0x09 || n == 0x0a || n == 0x0d || (0x20 ≤ n && n ≤ 0x7e) || n == 0x85 ||
    (0xa0 ≤ n && n ≤ 0xd7ff) || (0xe000 ≤ n && n ≤ 0xfffd) || 0x10000 ≤ n

/-- Whether the text ends or a line ends here. -/
def atLineEnd : List Char → Bool
  | [] => true
  | c :: _ => isBreak c

/-- Whether the text ends, or a space, tab or line break follows. -/
def atGap : List Char → Bool
  | [] => true
  | c :: _ => isSpace c || isBreak c

namespace Mark

def skip (m : Mark) : Mark := { m with index := m.index + 1, column := m.column + 1 }

/-- Behind a line break of `width` characters. -/
def nextLine (m : Mark) (width : Nat) : Mark := ⟨m.index + width, m.line + 1, 0⟩

end Mark

namespace Cursor

def peek? (c : Cursor) : Option Char := c.rest.head?

def skip (c : Cursor) : Cursor :=
  match c.rest with
  | [] => c
  | _ :: rest => { c with rest, mark := c.mark.skip }

def skipMany : Nat → Cursor → Cursor
  | 0, c => c
  | n + 1, c => skipMany n c.skip

/-- Reads one line break, if there is one. -/
def readBreak (c : Cursor) : List Char × Cursor :=
  match c.rest with
  | '\r' :: '\n' :: rest => (['\n'], { c with rest, mark := c.mark.nextLine 2 })
  | b :: rest =>
    if isBreak b then ([breakText b], { c with rest, mark := c.mark.nextLine 1 }) else ([], c)
  | [] => ([], c)

def spanFrom (p : Char → Bool) (read : List Char) (mark : Mark) :
    List Char → List Char × Mark × List Char
  | [] => (read.reverse, mark, [])
  | c :: rest =>
    if p c then spanFrom p (c :: read) mark.skip rest else (read.reverse, mark, c :: rest)

/-- Reads characters on one line as long as they satisfy `p`. -/
def span (p : Char → Bool) (c : Cursor) : List Char × Cursor :=
  let (read, mark, rest) := spanFrom p [] c.mark c.rest
  (read, { c with rest, mark })

def skipWhile (p : Char → Bool) (c : Cursor) : Cursor := (c.span p).2

/-- Whether a line starts here with one of the two document markers. -/
def atDocumentMarker (c : Cursor) : Bool :=
  c.mark.column == 0 &&
    match c.rest with
    | '-' :: '-' :: '-' :: rest => atGap rest
    | '.' :: '.' :: '.' :: rest => atGap rest
    | _ => false

end Cursor
end CommandSpec.Yaml
