import CommandSpec.Yaml.Lexeme

/-! From text to tokens. Blocks open and close by indentation; a key token is put before
the start of a simple key once the colon behind it is met. -/
namespace CommandSpec.Yaml

/-- The start of what may turn out to be a key, and the number of its first token. A
required one that turns out not to be a key is an error. -/
structure SimpleKey where
  required : Bool
  number : Nat
  mark : Mark
  deriving Inhabited

structure Scanner where
  cursor : Cursor
  /-- The column of the innermost block, and those of the blocks around it; -1 outside of all. -/
  indent : Int := -1
  outer : List Int := []
  keyAllowed : Bool := true
  /-- The possible key of the current flow level. -/
  simpleKey : Option SimpleKey := none
  /-- Those of the flow levels around it; there are as many as levels. -/
  outerKeys : List (Option SimpleKey) := []
  /-- The tokens read so far, the last one first, and how many they are. -/
  tokens : List Token := []
  count : Nat := 0
  deriving Inhabited

namespace Scanner

def inFlow (s : Scanner) : Bool := !s.outerKeys.isEmpty

def push (s : Scanner) (t : Token) : Scanner :=
  { s with tokens := t :: s.tokens, count := s.count + 1 }

/-- Puts a token before the one of that number. -/
private def insertToken (s : Scanner) (number : Nat) (t : Token) : Scanner :=
  { s with tokens := s.tokens.insertIdx (s.count - number) t, count := s.count + 1 }

/-- The possible keys of all levels. -/
def possibleKeys (s : Scanner) : List SimpleKey :=
  (s.simpleKey :: s.outerKeys).filterMap id

/-- A key stands on one line and within 1024 characters. -/
def isStale (m : Mark) (k : SimpleKey) : Bool :=
  k.mark.line < m.line || k.mark.index + 1024 < m.index

/-- Gives up possible keys that have become too long; `none` if one of them is required. -/
def dropStaleKeys (s : Scanner) : Option Scanner :=
  let stale := isStale s.cursor.mark
  if s.possibleKeys.any fun k => stale k && k.required then none
  else
    let keep (k : Option SimpleKey) : Option SimpleKey := k.filter (!stale ·)
    some { s with simpleKey := keep s.simpleKey, outerKeys := s.outerKeys.map keep }

def dropKey (s : Scanner) : Option Scanner :=
  if s.simpleKey.any (·.required) then none else some { s with simpleKey := none }

/-- Notes that a key may start here. -/
def saveKey (s : Scanner) : Option Scanner :=
  if s.keyAllowed then do
    let required := !s.inFlow && s.indent == (s.cursor.mark.column : Int)
    let s ← s.dropKey
    return { s with simpleKey := some ⟨required, s.count, s.cursor.mark⟩ }
  else some s

/-- Opens a block at `column` unless one is open there; its start is put before the token
of that number, or at the end. -/
def openBlock (s : Scanner) (column : Nat) (number : Option Nat) (t : Token) : Scanner :=
  if s.inFlow || s.indent ≥ column then s
  else
    let s := { s with outer := s.indent :: s.outer, indent := column }
    match number with
    | some number => s.insertToken number t
    | none => s.push t

def closeFrom (column : Int) (s : Scanner) : List Int → Scanner
  | [] => s
  | i :: outer =>
    if s.indent > column then closeFrom column ({ s with indent := i, outer }.push .blockEnd) outer
    else s

/-- Closes the blocks that are indented deeper than `column`. -/
def closeBlocks (s : Scanner) (column : Int) : Scanner :=
  if s.inFlow then s else closeFrom column s s.outer

def advance (s : Scanner) (n : Nat) : Scanner :=
  { s with cursor := s.cursor.skipMany n }

/-- Skips blanks, comments and line breaks. Tabs do not indent. -/
def skipToToken : Nat → Scanner → Scanner
  | 0, s => s
  | fuel + 1, s =>
    let c := s.cursor
    let c := if c.mark.column == 0 && c.peek? == some byteOrderMark then c.skip else c
    let tabs := s.inFlow || !s.keyAllowed
    let c := c.skipWhile fun x => x == ' ' || (tabs && x == '\t')
    let c := if c.peek? == some '#' then c.skipWhile (!isBreak ·) else c
    if c.peek?.any isBreak then
      skipToToken fuel
        { s with cursor := c.readBreak.2, keyAllowed := s.keyAllowed || !s.inFlow }
    else { s with cursor := c }

/-- The end of the text ends its last line and closes everything but flow collections. -/
def finish (s : Scanner) : Option Scanner := do
  let mark := s.cursor.mark
  let mark := if mark.column == 0 then mark else mark.nextLine 0
  let s ← ({ s with cursor := { s.cursor with mark } }.closeBlocks (-1)).dropKey
  return { s with keyAllowed := false }.push .streamEnd

def fetchDirective (s : Scanner) : Option Scanner := do
  let s ← (s.closeBlocks (-1)).dropKey
  let (token, cursor) ← readDirective s.cursor
  return { s with keyAllowed := false, cursor }.push token

def fetchDocumentMarker (s : Scanner) (t : Token) : Option Scanner := do
  let s ← (s.closeBlocks (-1)).dropKey
  return ({ s with keyAllowed := false }.advance 3).push t

private def fetchFlowStart (s : Scanner) (t : Token) : Option Scanner := do
  let s ← s.saveKey
  let s := { s with simpleKey := none, outerKeys := s.simpleKey :: s.outerKeys }
  return ({ s with keyAllowed := true }.advance 1).push t

private def fetchFlowEnd (s : Scanner) (t : Token) : Option Scanner := do
  let s ← s.dropKey
  let s := match s.outerKeys with
    | k :: outerKeys => { s with simpleKey := k, outerKeys }
    | [] => s
  return ({ s with keyAllowed := false }.advance 1).push t

private def fetchFlowEntry (s : Scanner) : Option Scanner := do
  let s ← s.dropKey
  return ({ s with keyAllowed := true }.advance 1).push .flowEntry

/-- A block entry or an explicit key: it opens a block where a key may stand. -/
private def fetchBlockMark (s : Scanner) (start mark : Token) (keyAllowed : Bool) :
    Option Scanner := do
  if !s.inFlow && !s.keyAllowed then none
  else
    let s ← (s.openBlock s.cursor.mark.column none start).dropKey
    return ({ s with keyAllowed }.advance 1).push mark

private def fetchValue (s : Scanner) : Option Scanner :=
  match s.simpleKey with
  | some k =>
    let s := (s.insertToken k.number .key).openBlock k.mark.column (some k.number)
      .blockMappingStart
    some <| ({ s with simpleKey := none, keyAllowed := false }.advance 1).push .value
  | none =>
    if !s.inFlow && !s.keyAllowed then none
    else
      let s := s.openBlock s.cursor.mark.column none .blockMappingStart
      some <| ({ s with keyAllowed := !s.inFlow }.advance 1).push .value

private def fetchAnchor (s : Scanner) (token : String → Token) : Option Scanner := do
  let s ← s.saveKey
  let (name, cursor) ← readAnchorName s.cursor
  return { s with keyAllowed := false, cursor }.push (token name)

private def fetchTag (s : Scanner) : Option Scanner := do
  let s ← s.saveKey
  let (token, cursor) ← readTag s.inFlow s.cursor
  return { s with keyAllowed := false, cursor }.push token

private def fetchBlockScalar (s : Scanner) (folded : Bool) : Option Scanner := do
  let s ← s.dropKey
  let (token, cursor) ← readBlockScalar folded s.indent s.cursor
  return { s with keyAllowed := true, cursor }.push token

private def fetchQuoted (s : Scanner) (single : Bool) : Option Scanner := do
  let s ← s.saveKey
  let (token, cursor) ← readQuoted single s.cursor
  return { s with keyAllowed := false, cursor }.push token

private def fetchPlain (s : Scanner) : Option Scanner := do
  let s ← s.saveKey
  let (token, broken, cursor) ← readPlain s.inFlow s.indent s.cursor
  return { s with keyAllowed := broken, cursor }.push token

/-- Characters that start no plain scalar, unless more of one follows. -/
private def isIndicator (c : Char) : Bool := "-?:,[]\x7b\x7d#&*!|>'\"%@\x60".toList.contains c

/-- Reads the next token, with the ends and starts of blocks that it brings. -/
def fetch (s : Scanner) : Option Scanner := do
  let s ← (s.skipToToken s.cursor.limit).dropStaleKeys
  let s := s.closeBlocks s.cursor.mark.column
  let column := s.cursor.mark.column
  match s.cursor.rest with
  | [] => s.finish
  | c :: rest =>
    let gap := atGap rest
    if column == 0 && c == '%' then s.fetchDirective
    else if s.cursor.atDocumentMarker then
      s.fetchDocumentMarker (if c == '-' then .documentStart else .documentEnd)
    else if c == '[' then s.fetchFlowStart .flowSequenceStart
    else if c == '{' then s.fetchFlowStart .flowMappingStart
    else if c == ']' then s.fetchFlowEnd .flowSequenceEnd
    else if c == '}' then s.fetchFlowEnd .flowMappingEnd
    else if c == ',' then s.fetchFlowEntry
    else if c == '-' && gap then s.fetchBlockMark .blockSequenceStart .blockEntry true
    else if c == '?' && (s.inFlow || gap) then
      s.fetchBlockMark .blockMappingStart .key (!s.inFlow)
    else if c == ':' && (s.inFlow || gap) then s.fetchValue
    else if c == '*' then s.fetchAnchor .alias
    else if c == '&' then s.fetchAnchor .anchor
    else if c == '!' then s.fetchTag
    else if c == '|' && !s.inFlow then s.fetchBlockScalar false
    else if c == '>' && !s.inFlow then s.fetchBlockScalar true
    else if c == '\'' then s.fetchQuoted true
    else if c == '"' then s.fetchQuoted false
    else if !(isSpace c || isIndicator c) ||
        (c == '-' && !(rest.head?.any isSpace)) ||
        (!s.inFlow && (c == '?' || c == ':') && !gap) then s.fetchPlain
    else none

/-- Whether a required key has become too long. -/
def missesKey (s : Scanner) : Bool :=
  s.possibleKeys.any fun k => k.required && isStale s.cursor.mark k

/-- The tokens that nothing read later can change: those before the first possible key.
A key that has become too long, but need not be one, is no longer possible. -/
def settledTokens (s : Scanner) : List Token :=
  let keys := s.possibleKeys.filter fun k => k.required || !isStale s.cursor.mark k
  s.tokens.reverse.take (keys.foldl (fun n k => min n k.number) s.count)

/-- Fetches tokens up to the end of the text or the first place where none can be read.
Each takes at least one character. -/
def run : Nat → Scanner → List Token
  | 0, s => s.settledTokens
  | fuel + 1, s =>
    match s.fetch with
    | none => s.settledTokens
    | some next =>
      if next.missesKey then s.settledTokens
      else if next.tokens.head? == some .streamEnd then next.tokens.reverse
      else run fuel next

end Scanner

/-- The tokens of a text. They end with the end of the stream unless the text is
malformed; then they end where reading could not go on. -/
def tokens (text : List Char) : List Token :=
  if text.all isAllowed then
    Scanner.run (text.length + 2) { cursor := { rest := text, limit := text.length + 1 } }
  else []

end CommandSpec.Yaml
