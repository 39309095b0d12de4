import CommandSpec.Bindings.Sink

/-! Indented text on a sink. What to write is a list of steps; a block nests its
steps one level deeper. The first failing step ends the block it stands in. -/
namespace CommandSpec

inductive Step where
  /-- Text behind the indentation, without a line end. -/
  | text (s : String)
  /-- A line behind the indentation; an empty line has none. -/
  | line (s : String)
  /-- A line and a blank line after it. -/
  | spacedLine (s : String)
  | blank
  | block (steps : List Step)

structure CodeWriter where
  sink : Sink
  indent : String
  level : Nat := 0
  counter : ByteCounter := {}

/-- What happens while steps run. -/
inductive StepEvent where
  /-- A block begins; the level is the one around it. -/
  | entered (level : Nat)
  /-- A step ended: its error if it failed, then the level and the bytes written. -/
  | ended (error : Option WriteError) (level written : Nat)
  deriving DecidableEq

namespace CodeWriter

def indentation (w : CodeWriter) : String :=
  String.join (List.replicate w.level w.indent)

/-- One write on the sink. -/
def put (w : CodeWriter) (s : String) : Except WriteError Unit × CodeWriter :=
  let (result, sink) := w.sink.write s.toUTF8
  let (result, counter) := w.counter.record s.utf8ByteSize result
  (result, { w with sink, counter })

def putLine (w : CodeWriter) (s : String) : Except WriteError Unit × CodeWriter :=
  if s.isEmpty then w.put "\n" else w.put (w.indentation ++ s ++ "\n")

def ended (w : CodeWriter) (result : Except WriteError Unit) : StepEvent :=
  .ended (match result with | .ok () => none | .error e => some e) w.level w.counter.written

mutual

def runStep (w : CodeWriter) : Step → Except WriteError Unit × CodeWriter × List StepEvent
  | .text s => finish (w.put (w.indentation ++ s))
  | .line s => finish (w.putLine s)
  | .spacedLine s =>
    match w.putLine s with
    | (.ok (), w) => finish (w.put "\n")
    | failed => finish failed
  | .blank => finish (w.put "\n")
  | .block steps =>
    let entered := StepEvent.entered w.level
    let (result, inner, events) := runBlock { w with level := w.level + 1 } steps
    let w := { inner with level := inner.level - 1 }
    (result, w, entered :: (events ++ [w.ended result]))
where
  finish (r : Except WriteError Unit × CodeWriter) :
      Except WriteError Unit × CodeWriter × List StepEvent :=
    (r.1, r.2, [r.2.ended r.1])

/-- Runs steps up to the first that fails. -/
def runBlock (w : CodeWriter) : List Step → Except WriteError Unit × CodeWriter × List StepEvent
  | [] => (.ok (), w, [])
  | step :: rest =>
    match runStep w step with
    | (.ok (), w, events) =>
      let (result, w, more) := runBlock w rest
      (result, w, events ++ more)
    | failed => failed

end

/-- Runs steps one after the other, failing ones included. -/
def runAll (w : CodeWriter) : List Step → CodeWriter × List StepEvent
  | [] => (w, [])
  | step :: rest =>
    let (_, w, events) := runStep w step
    let (w, more) := runAll w rest
    (w, events ++ more)

end CodeWriter
end CommandSpec
