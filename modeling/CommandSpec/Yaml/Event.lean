import CommandSpec.Yaml.Token

/-! From tokens to events: the nodes of the documents in a text, collections by their
start and end. -/
namespace CommandSpec.Yaml

inductive Event where
  | documentStart
  | documentEnd
  | alias (anchor : String)
  | scalar (scalar : Scalar) (anchor : Option String)
  | seqStart (tag anchor : Option String)
  | seqEnd
  | mapStart (tag anchor : Option String)
  | mapEnd
  deriving DecidableEq, Inhabited

/-- What is to be read next. -/
inductive Goal where
  | implicitDocument
  | document
  | documentContent
  | documentEnd
  | blockNode
  | blockEntry
  | indentlessEntry
  | blockKey
  | blockValue
  | flowEntry (first : Bool)
  | pairKey
  | pairValue
  | pairEnd
  | flowKey (first : Bool)
  | flowValue (empty : Bool)
  deriving DecidableEq, Inhabited

structure Reader where
  tokens : List Token
  goal : Goal := .implicitDocument
  /-- What is to be read after that, the next first. -/
  later : List Goal := []
  /-- Tag handles and what they stand for. -/
  handles : List (String × String) := []
  deriving Inhabited

def defaultHandles : List (String × String) :=
  [("!", "!"), ("!!", "tag:yaml.org,2002:")]

/-- One event and the reader behind it; at the end of the stream there is none. -/
inductive Step where
  | event (e : Event) (r : Reader)
  | finished
  | failed
  deriving Inhabited

namespace Reader

/-- The event, with the innermost goal kept for later as the next one. -/
def leave (r : Reader) (e : Event) : Step :=
  match r.later with
  | goal :: later => .event e { r with goal, later }
  | [] => .failed

def emptyScalar : Event := .scalar { text := "" } none

/-- Reads an anchor and a tag in either order; `none` for an unknown tag handle. -/
def properties (handles : List (String × String)) (tokens : List Token) :
    Option (Option String × Option String × List Token) :=
  let expand (handle suffix : String) : Option String :=
    if handle.isEmpty then some suffix else (handles.lookup handle).map (· ++ suffix)
  match tokens with
  | .anchor a :: .tag handle suffix :: rest =>
    (expand handle suffix).map fun t => (some a, some t, rest)
  | .tag handle suffix :: .anchor a :: rest =>
    (expand handle suffix).map fun t => (some a, some t, rest)
  | .anchor a :: rest => some (some a, none, rest)
  | .tag handle suffix :: rest => (expand handle suffix).map fun t => (none, some t, rest)
  | rest => some (none, none, rest)

/-- Reads a node. In a block it may be a block collection; a sequence that is not
indented may stand only as the key or value of a mapping. -/
def node (r : Reader) (block indentless : Bool) : Step :=
  match r.tokens with
  | .alias name :: tokens => { r with tokens }.leave (.alias name)
  | _ =>
    match properties r.handles r.tokens with
    | none => .failed
    | some (anchor, tag, tokens) =>
      let r := { r with tokens }
      match tokens with
      | .scalar text style :: tokens =>
        let (tag, style) := if tag == some "!" then (none, style) else (tag, style)
        { r with tokens }.leave (.scalar { text, style, tag } anchor)
      | .flowSequenceStart :: tokens =>
        .event (.seqStart tag anchor) { r with tokens, goal := .flowEntry true }
      | .flowMappingStart :: tokens =>
        .event (.mapStart tag anchor) { r with tokens, goal := .flowKey true }
      | token :: rest =>
        if indentless && token == .blockEntry then
          .event (.seqStart tag anchor) { r with goal := .indentlessEntry }
        else if block && token == .blockSequenceStart then
          .event (.seqStart tag anchor) { r with tokens := rest, goal := .blockEntry }
        else if block && token == .blockMappingStart then
          .event (.mapStart tag anchor) { r with tokens := rest, goal := .blockKey }
        else if anchor.isSome || tag.isSome then
          r.leave (.scalar { text := "", tag } anchor)
        else .failed
      | [] => .failed

/-- Reads a node with `goal` after it. -/
private def nodeThen (r : Reader) (goal : Goal) (block indentless : Bool) : Step :=
  { r with later := goal :: r.later }.node block indentless

/-- Reads directives; `none` if one stands twice or the version is not known. -/
def directives : List Token → (versioned : Bool) → List (String × String) →
    Option (List (String × String) × List Token)
  | .versionDirective major minor :: rest, versioned, handles =>
    if versioned || major != 1 || (minor != 1 && minor != 2) then none
    else directives rest true handles
  | .tagDirective handle expansion :: rest, versioned, handles =>
    if (handles.lookup handle).isSome then none
    else directives rest versioned ((handle, expansion) :: handles)
  | tokens, _, handles => some (handles, tokens)

/-- Starts a document; an explicit one has directives and a start mark in front of it. -/
def openDocument (tokens : List Token) (explicit : Bool) : Step :=
  if explicit then
    match directives tokens false [] with
    | some (handles, .documentStart :: tokens) =>
      .event .documentStart
        { tokens
          goal := .documentContent
          later := [.documentEnd]
          handles := handles ++ defaultHandles }
    | _ => .failed
  else
    .event .documentStart
      { tokens, goal := .blockNode, later := [.documentEnd], handles := defaultHandles }

def documentStart (r : Reader) (implicit : Bool) : Step :=
  let tokens := if implicit then r.tokens else r.tokens.dropWhile (· == .documentEnd)
  match tokens with
  | [] => .failed
  | .streamEnd :: _ => .finished
  | token :: _ =>
    openDocument tokens <| match token with
      | .versionDirective .. | .tagDirective .. | .documentStart => true
      | _ => !implicit

/-- An item of a flow sequence, which may be a mapping of one pair without braces. -/
private def flowItem (r : Reader) : Step :=
  match r.tokens with
  | .key :: rest => .event (.mapStart none none) { r with tokens := rest, goal := .pairKey }
  | .flowSequenceEnd :: rest => { r with tokens := rest }.leave .seqEnd
  | _ => r.nodeThen (.flowEntry false) false false

/-- A key of a flow mapping; without its mark it is a key that has no value. -/
private def flowField (r : Reader) : Step :=
  match r.tokens with
  | .key :: rest =>
    let r := { r with tokens := rest }
    match rest with
    | .value :: _ | .flowEntry :: _ | .flowMappingEnd :: _ =>
      .event emptyScalar { r with goal := .flowValue false }
    | _ => r.nodeThen (.flowValue false) false false
  | .flowMappingEnd :: rest => { r with tokens := rest }.leave .mapEnd
  | _ => r.nodeThen (.flowValue true) false false

/-- Reads one event. -/
def step (r : Reader) : Step :=
  match r.goal, r.tokens with
  | .implicitDocument, _ => r.documentStart true
  | .document, _ => r.documentStart false
  | .pairEnd, _ => .event .mapEnd { r with goal := .flowEntry false }
  | _, [] => .failed
  | .documentContent, token :: _ =>
    match token with
    | .versionDirective .. | .tagDirective .. | .documentStart | .documentEnd | .streamEnd =>
      r.leave emptyScalar
    | _ => r.node true false
  | .documentEnd, token :: rest =>
    .event .documentEnd
      { r with tokens := if token == .documentEnd then rest else r.tokens, goal := .document }
  | .blockNode, _ => r.node true false
  | .blockEntry, .blockEntry :: rest =>
    let r := { r with tokens := rest }
    match rest with
    | .blockEntry :: _ | .blockEnd :: _ => .event emptyScalar r
    | _ => r.nodeThen .blockEntry true false
  | .blockEntry, .blockEnd :: rest => { r with tokens := rest }.leave .seqEnd
  | .blockEntry, _ => .failed
  | .indentlessEntry, .blockEntry :: rest =>
    let r := { r with tokens := rest }
    match rest with
    | .blockEntry :: _ | .key :: _ | .value :: _ | .blockEnd :: _ => .event emptyScalar r
    | _ => r.nodeThen .indentlessEntry true false
  | .indentlessEntry, _ => r.leave .seqEnd
  | .blockKey, .key :: rest =>
    let r := { r with tokens := rest }
    match rest with
    | .key :: _ | .value :: _ | .blockEnd :: _ => .event emptyScalar { r with goal := .blockValue }
    | _ => r.nodeThen .blockValue true true
  | .blockKey, .blockEnd :: rest => { r with tokens := rest }.leave .mapEnd
  | .blockKey, _ => .failed
  | .blockValue, .value :: rest =>
    let r := { r with tokens := rest }
    match rest with
    | .key :: _ | .value :: _ | .blockEnd :: _ => .event emptyScalar { r with goal := .blockKey }
    | _ => r.nodeThen .blockKey true true
  | .blockValue, _ => .event emptyScalar { r with goal := .blockKey }
  | .flowEntry _, .flowSequenceEnd :: rest => { r with tokens := rest }.leave .seqEnd
  | .flowEntry true, _ => r.flowItem
  | .flowEntry false, .flowEntry :: rest => { r with tokens := rest }.flowItem
  | .flowEntry false, _ => .failed
  | .pairKey, token :: rest =>
    match token with
    | .value | .flowEntry | .flowSequenceEnd =>
      .event emptyScalar { r with tokens := rest, goal := .pairValue }
    | _ => r.nodeThen .pairValue false false
  | .pairValue, .value :: rest =>
    let r := { r with tokens := rest }
    match rest with
    | .flowEntry :: _ | .flowSequenceEnd :: _ => .event emptyScalar { r with goal := .pairEnd }
    | _ => r.nodeThen .pairEnd false false
  | .pairValue, _ => .event emptyScalar { r with goal := .pairEnd }
  | .flowKey _, .flowMappingEnd :: rest => { r with tokens := rest }.leave .mapEnd
  | .flowKey true, _ => r.flowField
  | .flowKey false, .flowEntry :: rest => { r with tokens := rest }.flowField
  | .flowKey false, _ => .failed
  | .flowValue true, _ => .event emptyScalar { r with goal := .flowKey false }
  | .flowValue false, .value :: rest =>
    let r := { r with tokens := rest }
    match rest with
    | .flowEntry :: _ | .flowMappingEnd :: _ => .event emptyScalar { r with goal := .flowKey false }
    | _ => r.nodeThen (.flowKey false) false false
  | .flowValue false, _ => .event emptyScalar { r with goal := .flowKey false }

/-- All events, and whether the stream was read to its end. -/
def run : Nat → List Event → Reader → List Event × Bool
  | 0, events, _ => (events.reverse, false)
  | fuel + 1, events, r =>
    match r.step with
    | .event e r => run fuel (e :: events) r
    | .finished => (events.reverse, true)
    | .failed => (events.reverse, false)

end Reader

/-- The events of tokens. At most four events come from one token. -/
def events (tokens : List Token) : List Event × Bool :=
  Reader.run (4 * tokens.length + 8) [] { tokens }

end CommandSpec.Yaml
