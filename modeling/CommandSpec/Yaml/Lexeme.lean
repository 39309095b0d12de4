import CommandSpec.Yaml.Cursor
import CommandSpec.Yaml.Token

/-! The tokens that take more than one or two characters: directives, anchors, tags, and
scalars of all styles. Each reader starts at the first character of its token and gives
`none` where the text is no such token. -/
namespace CommandSpec.Yaml

/-- Line breaks between words: the first is a space unless more follow or it is one of
the separators. -/
def foldBreaks (first more : List Char) : List Char :=
  match first with
  | ['\n'] => if more.isEmpty then [' '] else more
  | _ => first ++ more

/-! ## Directives, anchors and tags -/

def skipSpaces (c : Cursor) : Cursor := c.skipWhile isSpace

def skipComment (c : Cursor) : Cursor :=
  if c.peek? == some '#' then c.skipWhile (!isBreak ·) else c

def readVersionNumber (c : Cursor) : Option (Nat × Cursor) :=
  let (digits, c) := c.span Char.isDigit
  if digits.isEmpty || digits.length > 9 then none
  else some (digits.foldl (fun n d => n * 10 + (d.toNat - 0x30)) 0, c)

def hexPair? (a b : Char) : Option Nat := do
  let a ← digitOf? a
  let b ← digitOf? b
  if a < 16 && b < 16 then some (a * 16 + b) else none

/-- The number of octets in a character that starts with octet `n`; 0 if none does. -/
def octetCount (n : Nat) : Nat :=
  if n < 0x80 then 1
  else if n / 0x20 == 6 then 2
  else if n / 0x10 == 0xe then 3
  else if n / 8 == 0x1e then 4
  else 0

/-- Reads `count` escaped octets. -/
def readOctets : Nat → List Char → Option (List Nat × List Char)
  | 0, cs => some ([], cs)
  | n + 1, '%' :: a :: b :: rest => do
    let octet ← hexPair? a b
    let (octets, rest) ← readOctets n rest
    return (octet :: octets, rest)
  | _, _ => none

/-- A character written as escaped octets. -/
def readEscapedChar (cs : List Char) : Option (Char × Nat × List Char) := do
  let (first, _) ← readOctets 1 cs
  let count := octetCount (first.headD 0)
  if count == 0 then none
  else do
    let (octets, rest) ← readOctets count cs
    if octets.tail.all (fun o => o / 0x40 == 2) then
      let lead := octets.headD 0
      let lead := if count == 1 then lead else lead % Nat.pow 2 (7 - count)
      return (Char.ofNat (octets.tail.foldl (fun n o => n * 64 + o % 64) lead), 3 * count, rest)
    else none

def isUriChar (verbatim : Bool) (c : Char) : Bool :=
  isWordChar c || ";/?:@&=+$.!~*'()".toList.contains c ||
    (verbatim && ",[]".toList.contains c)

def readUriLoop (verbatim : Bool) : Nat → List Char → Cursor → Option (List Char × Cursor)
  | 0, read, c => some (read.reverse, c)
  | fuel + 1, read, c =>
    match c.peek? with
    | some '%' =>
      match readEscapedChar c.rest with
      | some (x, width, _) => readUriLoop verbatim fuel (x :: read) (c.skipMany width)
      | none => none
    | some x =>
      if isUriChar verbatim x then readUriLoop verbatim fuel (x :: read) c.skip
      else some (read.reverse, c)
    | none => some (read.reverse, c)

def readUri (verbatim : Bool) (c : Cursor) : Option (List Char × Cursor) :=
  readUriLoop verbatim c.limit [] c

/-- A tag handle: an exclamation mark, word characters, and a second mark if there is one. -/
def readHandle (c : Cursor) : Option (List Char × Cursor) :=
  if c.peek? == some '!' then
    let (word, c) := c.skip.span isWordChar
    if c.peek? == some '!' then some ('!' :: word ++ ['!'], c.skip) else some ('!' :: word, c)
  else none

/-- What follows the name of a version directive. -/
def readVersionDirective (c : Cursor) : Option (Token × Cursor) := do
  let (major, c) ← readVersionNumber (skipSpaces c)
  if c.peek? != some '.' then none
  else do
    let (minor, c) ← readVersionNumber c.skip
    some (Token.versionDirective major minor, c)

/-- What follows the name of a tag directive. -/
def readTagDirective (c : Cursor) : Option (Token × Cursor) := do
  let (handle, c) ← readHandle (skipSpaces c)
  if handle.length > 1 && handle.getLast? != some '!' then none
  else if !(c.peek?.any isSpace) then none
  else do
    let (uri, c) ← readUri true (skipSpaces c)
    if uri.isEmpty || !atGap c.rest then none
    else some (Token.tagDirective (String.ofList handle) (String.ofList uri), c)

/-- A directive and the rest of its line. -/
def readDirective (c : Cursor) : Option (Token × Cursor) := do
  let (name, c) := c.skip.span isWordChar
  if name.isEmpty || !atGap c.rest then none
  else
    let (token, c) ←
      if name == "YAML".toList then readVersionDirective c
      else if name == "TAG".toList then readTagDirective c
      else none
    let c := skipComment (skipSpaces c)
    if atLineEnd c.rest then some (token, c.readBreak.2) else none

/-- The name behind `&` or `*`. -/
def readAnchorName (c : Cursor) : Option (String × Cursor) :=
  let (name, c) := c.skip.span isWordChar
  let ends := match c.rest with
    | x :: _ => "?:,]\x7d%@\x60".toList.contains x || atGap c.rest
    | [] => true
  if name.isEmpty || !ends then none else some (String.ofList name, c)

/-- A tag as a handle and a suffix; a verbatim tag has no handle. -/
def readTag (inFlow : Bool) (c : Cursor) : Option (Token × Cursor) := do
  let (token, c) ←
    if c.skip.peek? == some '<' then do
      let (uri, c) ← readUri true c.skip.skip
      if uri.isEmpty || c.peek? != some '>' then none
      else some (Token.tag "" (String.ofList uri), c.skip)
    else do
      let (handle, c) ← readHandle c
      if handle.length > 1 && handle.getLast? == some '!' then do
        let (uri, c) ← readUri false c
        if uri.isEmpty then none
        else some (Token.tag (String.ofList handle) (String.ofList uri), c)
      else do
        let (uri, c) ← readUri false c
        let suffix := handle.tail ++ uri
        if suffix.isEmpty then some (Token.tag "" "!", c)
        else some (Token.tag "!" (String.ofList suffix), c)
  if atGap c.rest || (inFlow && c.peek? == some ',') then some (token, c) else none

/-! ## Block scalars -/

/-- Skips line breaks and indentation, at most up to column `indent` if that is set, and
gives the breaks, the cursor and the greatest column reached. -/
private def readBlockBreaks (indent : Option Nat) :
    Nat → List Char → Nat → Cursor → Option (List Char × Cursor × Nat)
  | 0, breaks, reached, c => some (breaks, c, reached)
  | fuel + 1, breaks, reached, c =>
    let inIndentation := match indent with
      | none => true
      | some n => c.mark.column < n
    match c.rest with
    | ' ' :: _ =>
      if inIndentation then readBlockBreaks indent fuel breaks reached c.skip
      else some (breaks, c, max reached c.mark.column)
    | x :: _ =>
      let reached := max reached c.mark.column
      if x == '\t' && inIndentation then none
      else if isBreak x then
        let (b, next) := c.readBreak
        readBlockBreaks indent fuel (breaks ++ b) reached next
      else some (breaks, c, reached)
    | [] => some (breaks, c, max reached c.mark.column)

private def readBlockIndentation (indent : Option Nat) (least : Nat) (c : Cursor) :
    Option (List Char × Cursor × Nat) := do
  let (breaks, c, reached) ← readBlockBreaks indent c.limit [] 0 c
  return (breaks, c, indent.getD (max (max reached least) 1))

/-- The lines of a block scalar. `text` is what was read, backwards; `first` is the break
behind it and `more` the breaks of the empty lines that follow. -/
private def readBlockLines (folded : Bool) (indent : Nat) :
    Nat → (text first more : List Char) → (indented : Bool) → Cursor →
      Option (List Char × List Char × List Char × Cursor)
  | 0, text, first, more, _, c => some (text, first, more, c)
  | fuel + 1, text, first, more, indented, c =>
    if c.mark.column != indent || c.rest.isEmpty then some (text, first, more, c)
    else do
      let startsBlank := c.peek?.any isSpace
      let joined :=
        if folded && first == ['\n'] && !indented && !startsBlank then
          (if more.isEmpty then [' '] else []) ++ more
        else first ++ more
      let (line, c) := c.span (!isBreak ·)
      let (first, c) := c.readBreak
      let (more, c, _) ← readBlockIndentation (some indent) 0 c
      readBlockLines folded indent fuel (line.reverse ++ joined.reverse ++ text) first more
        startsBlank c

/-- How the breaks at the end of a block scalar are kept. -/
inductive Chomping where
  | strip
  | clip
  | keep
  deriving DecidableEq

private def readChomping (c : Cursor) : Option Chomping × Cursor :=
  match c.peek? with
  | some '+' => (some .keep, c.skip)
  | some '-' => (some .strip, c.skip)
  | _ => (none, c)

private def readIndentDigit (c : Cursor) : Option (Option Nat × Cursor) :=
  match c.peek? with
  | some d =>
    if d == '0' then none
    else if d.isDigit then some (some (d.toNat - 0x30), c.skip)
    else some (none, c)
  | none => some (none, c)

/-- A block scalar, given the indentation of the block around it. -/
def readBlockScalar (folded : Bool) (outer : Int) (c : Cursor) : Option (Token × Cursor) := do
  let (before, c) := readChomping c.skip
  let (increment, c) ← readIndentDigit c
  let (chomping, c) :=
    if before.isNone && increment.isSome then readChomping c else (before, c)
  let c := skipComment (skipSpaces c)
  if !atLineEnd c.rest then none
  else
    let c := c.readBreak.2
    let indent := increment.map fun n => if outer ≥ 0 then outer.toNat + n else n
    let (breaks, c, indent) ← readBlockIndentation indent (outer + 1).toNat c
    let (text, first, more, c) ←
      readBlockLines folded indent c.limit [] [] breaks false c
    let tail := match chomping.getD .clip with
      | .strip => []
      | .clip => first
      | .keep => first ++ more
    some (.scalar (String.ofList (text.reverse ++ tail)) (if folded then .folded else .literal), c)

/-! ## Flow scalars -/

private def readHex? : Nat → Nat → List Char → Option Nat
  | 0, n, _ => some n
  | count + 1, n, c :: rest =>
    match digitOf? c with
    | some d => if d < 16 then readHex? count (n * 16 + d) rest else none
    | none => none
  | _ + 1, _, [] => none

/-- The character behind a backslash and how many characters its escape takes up. -/
private def readEscape : List Char → Option (Char × Nat)
  | '0' :: _ => some ('\x00', 1)
  | 'a' :: _ => some ('\x07', 1)
  | 'b' :: _ => some ('\x08', 1)
  | 't' :: _ => some ('\t', 1)
  | '\t' :: _ => some ('\t', 1)
  | 'n' :: _ => some ('\n', 1)
  | 'v' :: _ => some ('\x0b', 1)
  | 'f' :: _ => some ('\x0c', 1)
  | 'r' :: _ => some ('\r', 1)
  | 'e' :: _ => some ('\x1b', 1)
  | ' ' :: _ => some (' ', 1)
  | '"' :: _ => some ('"', 1)
  | '/' :: _ => some ('/', 1)
  | '\\' :: _ => some ('\\', 1)
  | 'N' :: _ => some (Char.ofNat 0x85, 1)
  | '_' :: _ => some (Char.ofNat 0xa0, 1)
  | 'L' :: _ => some (Char.ofNat 0x2028, 1)
  | 'P' :: _ => some (Char.ofNat 0x2029, 1)
  | 'x' :: rest => numbered 2 rest
  | 'u' :: rest => numbered 4 rest
  | 'U' :: rest => numbered 8 rest
  | _ => none
where
  numbered (count : Nat) (rest : List Char) : Option (Char × Nat) :=
    match readHex? count 0 rest with
    | some n =>
      if (0xd800 ≤ n && n ≤ 0xdfff) || n > 0x10ffff then none
      else some (Char.ofNat n, count + 1)
    | none => none

/-- Blanks and breaks between the words of a flow scalar: the blanks if there is no
break, else the first break and the others. `broken` says that a break was met. -/
private structure Gap where
  blanks : List Char := []
  first : List Char := []
  more : List Char := []
  broken : Bool := false

private def readGap : Nat → Gap → Cursor → Gap × Cursor
  | 0, g, c => (g, c)
  | fuel + 1, g, c =>
    match c.rest with
    | x :: _ =>
      if isSpace x then
        let g := if g.broken then g else { g with blanks := g.blanks ++ [x] }
        readGap fuel g c.skip
      else if isBreak x then
        let (b, next) := c.readBreak
        let g := if g.broken then { g with more := g.more ++ b }
          else { blanks := [], first := b, more := [], broken := true }
        readGap fuel g next
      else (g, c)
    | [] => (g, c)

private def Gap.text (g : Gap) : List Char :=
  if g.broken then foldBreaks g.first g.more else g.blanks

/-- Characters of a quoted scalar up to a gap or its end, put before `read` backwards; the
flag says that an escaped line break ended them. -/
private def readQuotedWord (single : Bool) :
    Nat → List Char → Cursor → Option (List Char × Bool × Cursor)
  | 0, read, c => some (read, false, c)
  | fuel + 1, read, c =>
    if atGap c.rest then some (read, false, c)
    else
      match c.rest with
      | '\'' :: rest =>
        if !single then readQuotedWord single fuel ('\'' :: read) c.skip
        else if rest.head? == some '\'' then readQuotedWord single fuel ('\'' :: read) c.skip.skip
        else some (read, false, c)
      | '"' :: _ =>
        if single then readQuotedWord single fuel ('"' :: read) c.skip
        else some (read, false, c)
      | '\\' :: rest =>
        if single then readQuotedWord single fuel ('\\' :: read) c.skip
        else if rest.head?.any isBreak then some (read, true, c.skip.readBreak.2)
        else
          match readEscape rest with
          | some (x, width) => readQuotedWord single fuel (x :: read) (c.skipMany (width + 1))
          | none => none
      | x :: _ => readQuotedWord single fuel (x :: read) c.skip
      | [] => some (read, false, c)

private def readQuotedLoop (single : Bool) : Nat → List Char → Cursor → Option (List Char × Cursor)
  | 0, _, _ => none
  | fuel + 1, read, c =>
    if c.atDocumentMarker || c.rest.isEmpty then none
    else do
      let (read, escapedBreak, c) ← readQuotedWord single c.limit read c
      if c.peek? == some (if single then '\'' else '"') then some (read, c.skip)
      else
        let (gap, c) := readGap c.limit { broken := escapedBreak } c
        readQuotedLoop single fuel (gap.text.reverse ++ read) c

/-- A quoted scalar. -/
def readQuoted (single : Bool) (c : Cursor) : Option (Token × Cursor) := do
  let (read, c) ← readQuotedLoop single c.limit [] c.skip
  return (.scalar (String.ofList read.reverse) (if single then .singleQuoted else .doubleQuoted), c)

/-! ## Plain scalars -/

private def isFlowMark (c : Char) : Bool := ",[]\x7b\x7d".toList.contains c

/-- Characters of a plain scalar up to a gap or a mark that ends it. -/
private def readPlainWord (inFlow : Bool) : Nat → List Char → Cursor → Option (List Char × Cursor)
  | 0, read, c => some (read, c)
  | fuel + 1, read, c =>
    if atGap c.rest then some (read, c)
    else
      match c.rest with
      | x :: rest =>
        if inFlow && x == ':' && rest.head?.any (fun y => y == '?' || isFlowMark y) then none
        else if (x == ':' && atGap rest) || (inFlow && isFlowMark x) then some (read, c)
        else readPlainWord inFlow fuel (x :: read) c.skip
      | [] => some (read, c)

/-- Whether a tab stands where a line behind a break is indented. -/
private def tabInIndentation (indent : Int) : Nat → Bool → Cursor → Bool
  | 0, _, _ => false
  | fuel + 1, broken, c =>
    match c.rest with
    | x :: _ =>
      if isSpace x then
        (broken && x == '\t' && (c.mark.column : Int) < indent) ||
          tabInIndentation indent fuel broken c.skip
      else if isBreak x then tabInIndentation indent fuel true c.readBreak.2
      else false
    | [] => false

private def readPlainLoop (inFlow : Bool) (indent : Int) :
    Nat → (read : List Char) → Gap → Cursor → Option (List Char × Bool × Cursor)
  | 0, _, _, _ => none
  | fuel + 1, read, gap, c =>
    if c.atDocumentMarker || c.peek? == some '#' then some (read, gap.broken, c)
    else do
      let (word, next) ← readPlainWord inFlow c.limit [] c
      let (read, gap) :=
        if word.isEmpty then (read, gap) else (word ++ gap.text.reverse ++ read, {})
      if !(next.peek?.any fun x => isSpace x || isBreak x) then some (read, gap.broken, next)
      else if tabInIndentation indent next.limit gap.broken next then none
      else
        let (gap, after) := readGap next.limit gap next
        if !inFlow && (after.mark.column : Int) < indent then some (read, gap.broken, after)
        else readPlainLoop inFlow indent fuel read gap after

/-- A plain scalar, given the indentation of the block around it; the flag says that the
gap behind it holds a line break. -/
def readPlain (inFlow : Bool) (outer : Int) (c : Cursor) : Option (Token × Bool × Cursor) := do
  let (read, broken, c) ← readPlainLoop inFlow (outer + 1) c.limit [] {} c
  return (.scalar (String.ofList read.reverse) .plain, broken, c)

end CommandSpec.Yaml
