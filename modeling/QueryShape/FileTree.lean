/-!
# File trees

A directory of files held in memory, read by paths relative to it.
-/

set_option autoImplicit false

namespace QueryShape

/-- Why a file cannot be read as text. -/
inductive ReadFault where
  | missing
  | isDirectory
  /-- A file stands where the path needs a directory. -/
  | notDirectory
  | notText
  | other (reason : String)
deriving DecidableEq, Repr, Inhabited

def ReadFault.reason : ReadFault → String
  | missing => "No such file or directory (os error 2)"
  | isDirectory => "Is a directory (os error 21)"
  | notDirectory => "Not a directory (os error 20)"
  | notText => "stream did not contain valid UTF-8"
  | other reason => reason

/-- The text that bytes stand for. -/
def textOfBytes (bytes : ByteArray) : Except ReadFault String :=
  match String.fromUTF8? bytes with
  | some text => .ok text
  | none => .error .notText

/-- The parts of a path between its slashes. -/
def pathParts (path : String) : List String := path.splitOn "/"

/-- The name that a path ends in: its last part that is neither empty nor the directory itself. -/
def fileName? (path : String) : Option String :=
  match ((pathParts path).filter fun p => p ≠ "" && p ≠ ".").getLast? with
  | some ".." => none
  | name => name

/-- What follows the last dot of a file name, unless the name starts with that dot. -/
def extension? (path : String) : Option String := do
  let name ← fileName? path
  let back := name.toList.reverse.takeWhile (· ≠ '.')
  let front := name.toList.take (name.length - back.length - 1)
  if back.length = name.length || front = [] then none else some (String.ofList back.reverse)

inductive FileEntry where
  | file (content : ByteArray)
  | directory
deriving Inhabited

/-- Entries by their places, which are the names on the way to them; of two entries with one place the
first counts. -/
structure FileTree where
  entries : List (List String × FileEntry) := []

namespace FileTree

/-- The place that a part of a path leads to. -/
def placeAfter (place : List String) (part : String) : List String :=
  if part = "" || part = "." then place
  else if part = ".." then place.dropLast
  else place ++ [part]

/-- Puts an entry where a path leads, after a number of parts of it, with the directories on the way. -/
def insertAt (t : FileTree) (entry : FileEntry) : List String → List String → FileTree
  | place, [] => ⟨(place, entry) :: t.entries⟩
  | place, part :: rest =>
    insertAt ⟨(place, .directory) :: t.entries⟩ entry (placeAfter place part) rest

/-- Puts an entry where a path leads. -/
def insert (t : FileTree) (path : String) (entry : FileEntry) : FileTree :=
  t.insertAt entry [] (pathParts path)

def ofList (entries : List (String × FileEntry)) : FileTree :=
  entries.foldl (fun t (path, entry) => t.insert path entry) {}

/-- What stands at a place. -/
def find? (t : FileTree) (place : List String) : Option FileEntry :=
  if place = [] then some .directory else t.entries.lookup place

/-- Follows the parts of a path. Every place on the way has to be a directory, and what lies above the
tree is not there. -/
def resolve (t : FileTree) : List String → List String → Except ReadFault (List String)
  | place, [] => .ok place
  | place, part :: rest =>
    match t.find? place with
    | none => .error .missing
    | some (.file _) => .error .notDirectory
    | some .directory =>
      if part = ".." && place = [] then .error .missing
      else t.resolve (placeAfter place part) rest

/-- The text of the file at a path. -/
def read (t : FileTree) (path : String) : Except ReadFault String :=
  if path.startsWith "/" then .error .missing
  else do
    let place ← t.resolve [] (pathParts path)
    match t.find? place with
    | none => .error .missing
    | some .directory => .error .isDirectory
    | some (.file content) => textOfBytes content

end FileTree

end QueryShape
