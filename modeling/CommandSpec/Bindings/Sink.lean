/-! A byte sink that may fill up. -/
namespace CommandSpec

/-- What was accepted so far, and how many more bytes will be; `none` means any number. -/
structure Sink where
  held : ByteArray := .empty
  room : Option Nat := none

instance : Inhabited Sink := ⟨{}⟩

/-- Why a write failed. -/
structure WriteError where
  text : String
  deriving DecidableEq, Inhabited

def sinkFull : WriteError := ⟨"sink full"⟩

/-- Writes all bytes, or those there is room for, in which case the write fails. -/
def Sink.write (s : Sink) (bytes : ByteArray) : Except WriteError Unit × Sink :=
  match s.room with
  | none => (.ok (), { s with held := s.held ++ bytes })
  | some room =>
    if bytes.size ≤ room then
      (.ok (), { held := s.held ++ bytes, room := some (room - bytes.size) })
    else
      (.error sinkFull, { held := s.held ++ bytes.extract 0 room, room := some 0 })

/-- The number of bytes in writes that succeeded as a whole. -/
structure ByteCounter where
  written : Nat := 0
  deriving DecidableEq, Inhabited

/-- Counts `bytes` if their write succeeded; a failure passes through. -/
def ByteCounter.record (c : ByteCounter) (bytes : Nat) (result : Except ε Unit) :
    Except ε Unit × ByteCounter :=
  match result with
  | .ok () => (.ok (), ⟨c.written + bytes⟩)
  | .error e => (.error e, c)

end CommandSpec
