import CommandSpec.CommandLine.Run

/-! The program on the files and streams of the system. -/
namespace CommandSpec

/-- Why the system refused a file or folder. -/
def CommandLine.FileFault.ofError : IO.Error → CommandLine.FileFault
  | .noFileOrDirectory .. => .missing
  | .alreadyExists .. => .taken
  | .inappropriateType _ code _ => if code == 20 then .notFolder else .isFolder
  | e => .other (toString e)

def attempt (action : IO α) : IO (Except CommandLine.FileFault α) :=
  try return .ok (← action) catch e => return .error (.ofError e)

/-- Reads a stream to its end. -/
partial def readAll (stream : IO.FS.Stream) (read : ByteArray) : IO ByteArray := do
  let more ← stream.read 65536
  if more.isEmpty then return read else readAll stream (read ++ more)

def systemHost : CommandLine.Host IO where
  openFile path := do
    match ← attempt (IO.FS.readBinFile path) with
    | .ok content => return .ok (some content)
    | .error .isFolder => return .ok none
    | .error e => return .error e
  readInput := do attempt (readAll (← IO.getStdin) .empty)
  writeFile path content := attempt (IO.FS.writeBinFile path content)
  makeFolders path := attempt (IO.FS.createDirAll path)
  texts := .short

end CommandSpec

def main (args : List String) : IO UInt32 := do
  let outcome ← CommandSpec.CommandLine.run CommandSpec.systemHost args
  (← IO.getStdout).putStr outcome.output
  (← IO.getStderr).putStr outcome.errors
  return UInt32.ofNat outcome.code
