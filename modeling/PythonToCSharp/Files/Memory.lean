import PythonToCSharp.Files.Access
import PythonToCSharp.Text.Bytes
import PythonToCSharp.Text.Lines

/-!
Files in memory. A path is followed segment by segment from the working directory or from the root.
The directories are the working directory, those around a file and those around them. Nothing is
known of what lies beyond the root.
-/

namespace PythonToCSharp.Files

inductive Cause where
  | missing
  | notDirectory
  | isDirectory
  | tooLong
  deriving DecidableEq, Repr

def Cause.message : Cause → String
  | .missing => "No such file or directory (os error 2)"
  | .notDirectory => "Not a directory (os error 20)"
  | .isDirectory => "Is a directory (os error 21)"
  | .tooLong => "File name too long (os error 36)"

def nameLimit : Nat := 255

def pathLimit : Nat := 4095

/-- A place: the names that lead to it from the root. -/
abbrev Place := List String

structure Memory where
  /-- What paths from the root start with. -/
  root : String := ""
  workDir : Place := []
  files : List (Place × String) := []

namespace Memory

def textAt? (memory : Memory) (place : Place) : Option String :=
  memory.files.lookup place

def isFile (memory : Memory) (place : Place) : Bool :=
  (memory.textAt? place).isSome

def isDirectory (memory : Memory) (place : Place) : Bool :=
  place.isPrefixOf memory.workDir ||
    memory.files.any fun (file, _) => place.isPrefixOf file && place != file

/-- Whether a segment of a path stays in the directory where it stands. -/
def staysIn (name : String) : Bool :=
  name = "" || name = "."

/-- Follows names beyond the root, where only the directories above it are known. -/
def followBeyond (names : List String) : Except Cause Place :=
  if names.all fun name => staysIn name || name = ".." then .ok [] else .error .missing

/-- Follows names from a place; each step has to start in a directory. -/
def follow (memory : Memory) (place : Place) : List String → Except Cause Place
  | [] => .ok place
  | name :: rest =>
    if memory.isDirectory place then
      if staysIn name then follow memory place rest
      else if name = ".." then
        if place.isEmpty then followBeyond rest else follow memory place.dropLast rest
      else if nameLimit < Text.byteLength name.toList then .error .tooLong
      else follow memory (place ++ [name]) rest
    else .error (if memory.isFile place then .notDirectory else .missing)

/-- The place that the segments of a path lead to. -/
def resolveSegments (memory : Memory) : List String → Except Cause Place
  | [] => .error .missing
  | [""] => .error .missing
  | "" :: rest => followBeyond rest
  | first :: rest =>
    if first = memory.root && !rest.isEmpty then memory.follow [] rest
    else memory.follow memory.workDir (first :: rest)

def segmentsOf (path : String) : Except Cause (List String) :=
  if pathLimit < Text.byteLength path.toList then .error .tooLong else .ok (Text.pieces '/' path)

def resolve (memory : Memory) (path : String) : Except Cause Place := do
  memory.resolveSegments (← segmentsOf path)

def read (memory : Memory) (path : String) : Except Cause String := do
  let place ← memory.resolve path
  match memory.textAt? place with
  | some text => return text
  | none => throw (if memory.isDirectory place then .isDirectory else .missing)

def has (memory : Memory) (path : String) : Bool :=
  match memory.resolve path with
  | .ok place => memory.isFile place || memory.isDirectory place
  | .error _ => false

/-- The directory that a path with a slash at its end names a part of, if it is there. -/
def resolveAround (memory : Memory) (segments : List String) : Except Cause Place :=
  memory.resolveSegments ((segments.reverse.dropWhile (· = "")).reverse.dropLast ++ ["."])

/-- The place of a file to write. A path with a slash at its end stands for a directory, whatever is
there. -/
def resolveTarget (memory : Memory) (path : String) : Except Cause Place := do
  let segments ← segmentsOf path
  if 1 < segments.length && segments.getLast? = some "" then
    let _ ← memory.resolveAround segments
    throw .isDirectory
  let place ← memory.resolveSegments segments
  if memory.isDirectory place then throw .isDirectory
  return place

/-- Puts a text into a file, which is made if its directory is there. -/
def write (memory : Memory) (path text : String) : Except Cause Memory := do
  let place ← memory.resolveTarget path
  return { memory with files := (place, text) :: memory.files.filter fun entry => entry.1 != place }

end Memory

def inMemory : Access (StateM Memory) where
  has path := do return (← get).has path
  read path := do return ((← get).read path).mapError Cause.message
  write path text := do
    match (← get).write path text with
    | .ok memory =>
      set memory
      return .ok ()
    | .error cause => return .error cause.message

end PythonToCSharp.Files
