import CommandSpec.Yaml.Cursor
import CommandSpec.Yaml.Scalar

/-! Texts written as scalars: the style that reads back as the same text, plain where
possible, and the text in that style. -/
namespace CommandSpec.Yaml

/-- Characters that need no escape. -/
def isShown (c : Char) : Bool :=
  let n := c.toNat
  n == 0x0a || (0x20 ≤ n && n ≤ 0x7e) || (0xa0 ≤ n && n ≤ 0xfffd && n != 0xfeff) ||
    0x10000 ≤ n

/-- Whether a space, tab, line break or null character, or nothing, comes next. -/
def beforeGap : List Char → Bool
  | [] => true
  | c :: _ => isSpace c || isBreak c || c == '\x00'

/-- Characters that mean something else at the start of a scalar. -/
def isIndicator (c : Char) : Bool := "#,[]\x7b\x7d&*!|>'\"%@\x60".toList.contains c

def startsWithMarker (cs : List Char) : Bool :=
  "---".toList.isPrefixOf cs || "...".toList.isPrefixOf cs

/-- A colon before a gap, or a number sign behind one, somewhere behind the first character. -/
def hasInnerMark (gap : Bool) : List Char → Bool
  | [] => false
  | c :: rest =>
    (c == ':' && beforeGap rest) || (c == '#' && gap) ||
      hasInnerMark (beforeGap [c]) rest

/-- Whether a text without quotes would be taken for something else than a text. -/
def hasIndicators (cs : List Char) : Bool :=
  startsWithMarker cs ||
    match cs with
    | [] => false
    | c :: rest =>
      isIndicator c || ((c == '?' || c == ':' || c == '-') && beforeGap rest) ||
        hasInnerMark (beforeGap [c]) rest

/-- Whether a character that satisfies `p` comes right before one that satisfies `q`. -/
def hasPair (p q : Char → Bool) : List Char → Bool
  | c :: d :: rest => (p c && q d) || hasPair p q (d :: rest)
  | _ => false

def isBlankSpace (c : Char) : Bool := c == ' '

/-- Whether a text can only be written with escapes. -/
def needsEscapes (cs : List Char) : Bool :=
  cs.any (!isShown ·) || hasPair isBlankSpace isBreak cs

/-- Whether a text can stand without quotes on one line. -/
def mayBePlain (cs : List Char) : Bool :=
  !(hasIndicators cs || needsEscapes cs || cs.any isBreak || cs.head?.any isBlankSpace ||
    cs.getLast?.any isBlankSpace)

def mayBeSingleQuoted (cs : List Char) : Bool :=
  !(needsEscapes cs || hasPair isBreak isBlankSpace cs)

def mayBeLiteral (cs : List Char) : Bool :=
  !(cs.isEmpty || needsEscapes cs || cs.getLast?.any isBlankSpace)

/-- Whether a plain scalar of this text would be read as something else than a text, or
look like a number. -/
def looksTyped (s : String) : Bool :=
  isPaddedDigits s.toList ||
    match resolvePlain s with
    | .text _ => false
    | _ => true

/-- The style for a text. -/
def chooseStyle (s : String) : ScalarStyle :=
  let cs := s.toList
  if cs.contains '\n' then if mayBeLiteral cs then .literal else .doubleQuoted
  else if !looksTyped s && mayBePlain cs then .plain
  else if mayBeSingleQuoted cs then .singleQuoted
  else .doubleQuoted

def spaces (n : Nat) : List Char := List.replicate n ' '

/-- Indents what follows a line break, and the start if a line starts there. -/
def indentLines (indent : Nat) (lineStarts : Bool) : List Char → List Char
  | [] => []
  | c :: rest =>
    if isBreak c then c :: indentLines indent true rest
    else (if lineStarts then spaces indent else []) ++ c :: indentLines indent false rest

def endsWithBreak (cs : List Char) : Bool := cs.getLast?.any isBreak

/-- The marks of a literal block: the indentation, if the text does not show it, and what
becomes of the line breaks at the end. -/
def literalMarks (cs : List Char) : List Char :=
  let indentation := if cs.head?.any fun c => c == ' ' || isBreak c then ['2'] else []
  let ending :=
    if !endsWithBreak cs then ['-']
    else if cs.dropLast.isEmpty || endsWithBreak cs.dropLast then ['+']
    else []
  indentation ++ ending

def literalText (indent : Nat) (cs : List Char) : List Char :=
  '|' :: literalMarks cs ++ '\n' :: indentLines indent true cs

def doubleQuotes (cs : List Char) : List Char :=
  cs.flatMap fun c => if c == '\'' then ['\'', '\''] else [c]

def singleQuotedText (indent : Nat) (cs : List Char) : List Char :=
  '\'' :: indentLines indent false (doubleQuotes cs) ++
    (if endsWithBreak cs then spaces indent else []) ++ ['\'']

def upperHexDigit (n : Nat) : Char :=
  if n < 10 then Char.ofNat (0x30 + n) else Char.ofNat (0x37 + n)

/-- The last `width` hexadecimal digits of a number. -/
def upperHex : (width : Nat) → Nat → List Char
  | 0, _ => []
  | width + 1, n => upperHex width (n / 16) ++ [upperHexDigit (n % 16)]

/-- A character between double quotes. -/
def escapeChar (c : Char) : List Char :=
  match c.toNat with
  | 0x00 => ['\\', '0']
  | 0x07 => ['\\', 'a']
  | 0x08 => ['\\', 'b']
  | 0x09 => ['\\', 't']
  | 0x0a => ['\\', 'n']
  | 0x0b => ['\\', 'v']
  | 0x0c => ['\\', 'f']
  | 0x0d => ['\\', 'r']
  | 0x1b => ['\\', 'e']
  | 0x22 => ['\\', '"']
  | 0x5c => ['\\', '\\']
  | 0x85 => ['\\', 'N']
  | 0x2028 => ['\\', 'L']
  | 0x2029 => ['\\', 'P']
  | n =>
    if isShown c then [c]
    else if n ≤ 0xff then '\\' :: 'x' :: upperHex 2 n
    else if n ≤ 0xffff then '\\' :: 'u' :: upperHex 4 n
    else '\\' :: 'U' :: upperHex 8 n

def doubleQuotedText (cs : List Char) : List Char := '"' :: cs.flatMap escapeChar ++ ['"']

/-- A text as a scalar whose further lines are indented by `indent`. -/
def scalarText (indent : Nat) (s : String) : String :=
  match chooseStyle s with
  | .plain => s
  | .singleQuoted => String.ofList (singleQuotedText indent s.toList)
  | .doubleQuoted => String.ofList (doubleQuotedText s.toList)
  | .literal | .folded => String.ofList (literalText indent s.toList)

end CommandSpec.Yaml
