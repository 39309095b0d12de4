/-! Files and folders in memory, found by paths with slashes. A path may go through `.`
and `..`; above the outermost folder there is only that folder. -/
namespace CommandSpec.CommandLine

/-- Why a file or folder cannot be used. -/
inductive FileFault where
  | missing
  | taken
  | notFolder
  | isFolder
  | other (text : String)
  deriving DecidableEq, Inhabited

def FileFault.message : FileFault → String
  | missing => "No such file or directory (os error 2)"
  | taken => "File exists (os error 17)"
  | notFolder => "Not a directory (os error 20)"
  | isFolder => "Is a directory (os error 21)"
  | other text => text

/-- What stands between slashes, empty parts included. -/
def splitAtSlashes : List Char → List (List Char)
  | [] => [[]]
  | c :: rest =>
    if c = '/' then [] :: splitAtSlashes rest
    else
      match splitAtSlashes rest with
      | part :: more => (c :: part) :: more
      | [] => [[c]]

def slashParts (path : String) : List String := (splitAtSlashes path.toList).map String.ofList

/-- The parts of a path between slashes; empty ones and `.` lead nowhere else. -/
def pathParts (path : String) : List String :=
  ((slashParts path).map fun part => if part.isEmpty then "." else part).filter (· != ".")

/-- Whether a path can only mean a folder. -/
def endsAsFolder (path : String) : Bool :=
  match (slashParts path).getLast? with
  | some last => last == "" || last == "." || last == ".."
  | none => false

structure Folder where
  /-- Contents by place; a place is the names from the outermost folder down. -/
  files : List (List String × ByteArray) := []
  /-- The folders below the outermost one. -/
  folders : List (List String) := []
  deriving Inhabited

namespace Folder

def hasFolder (f : Folder) (place : List String) : Bool :=
  place.isEmpty || f.folders.contains place

def file? (f : Folder) (place : List String) : Option ByteArray := f.files.lookup place

/-- Follows the parts of a path from a folder. Only the last part may be missing. -/
def locate (f : Folder) (place : List String) : List String → Except FileFault (List String)
  | [] => .ok place
  | part :: rest =>
    let next := if part == ".." then place.dropLast else place ++ [part]
    if rest.isEmpty then .ok next
    else if f.hasFolder next then locate f next rest
    else .error (if (f.file? next).isSome then .notFolder else .missing)

/-- Writes a file at a place, over what it had. -/
def put (f : Folder) (place : List String) (content : ByteArray) : Folder :=
  { f with files := (place, content) :: f.files.filter (·.1 != place) }

/-- What is at a path: a file's content, or `none` for a folder. -/
def open? (f : Folder) (path : String) : Except FileFault (Option ByteArray) := do
  let place ← f.locate [] (pathParts path)
  if f.hasFolder place then return none
  match f.file? place with
  | some content => if endsAsFolder path then throw .notFolder else return some content
  | none => throw .missing

/-- Gives a file new content; it need not have been there, but its folder must. -/
def write (f : Folder) (path : String) (content : ByteArray) : Except FileFault Folder := do
  let place ← f.locate [] (pathParts path)
  if f.hasFolder place || endsAsFolder path then throw .isFolder
  return f.put place content

/-- Makes one folder, unless there is one. -/
def makeOne (f : Folder) (place : List String) : Except FileFault Folder :=
  if f.hasFolder place then .ok f
  else if (f.file? place).isSome then .error .taken
  else .ok { f with folders := place :: f.folders }

/-- Makes the folders on the way of the parts of a path. -/
def makeFrom (f : Folder) (place : List String) : List String → Except FileFault Folder
  | [] => .ok f
  | part :: rest =>
    let next := if part == ".." then place.dropLast else place ++ [part]
    match f.makeOne next with
    | .ok f => makeFrom f next rest
    | .error e => .error (if rest.isEmpty then e else .notFolder)

/-- Makes the folder at a path, with those it stands in. -/
def makeFolders (f : Folder) (path : String) : Except FileFault Folder :=
  f.makeFrom [] (pathParts path)

end Folder
end CommandSpec.CommandLine
