import CommandSpec.Bindings.Layout
import CommandSpec.Text.Utf8

/-! Bindings written to a sink or into a text. -/
namespace CommandSpec

inductive GenerateError where
  | plan (e : PlanError)
  | io (e : WriteError)
  deriving DecidableEq

def GenerateError.message : GenerateError → String
  | plan e => e.message
  | io e => "I/O error: " ++ e.text

/-- Writes the bindings and gives the number of bytes written. Nothing is written
unless a plan was found; after a failed write the sink keeps what it has. -/
def generate (document : Document) (config : Config) (sink : Sink) :
    Except GenerateError Nat × Sink :=
  match Plan.build document config with
  | .error e => (.error (.plan e), sink)
  | .ok plan =>
    let writer : CodeWriter := { sink, indent := "    " }
    let (result, writer, _) := writer.runBlock (Layout.module config plan)
    match result with
    | .error e => (.error (.io e), writer.sink)
    | .ok () => (.ok writer.counter.written, writer.sink)

/-- The bindings as one text. -/
def generateText (document : Document) (config : Config) : Except GenerateError String :=
  match generate document config {} with
  | (.error e, _) => .error e
  | (.ok _, sink) => .ok (Text.decodeLossy sink.held)

end CommandSpec
