/-!
A tree of files.  Names and paths are bytes.  Paths have their components between slashes; `.` and
empty components stay where they are and `..` goes up.  Files are read whole and are only ever
created new, never replaced.  There are no permissions and no links.
-/

namespace ByteMachine

inductive FileError where
  | notFound
  | exists
  | notDirectory
  | isDirectory
  | nameTooLong
  | badStream
  deriving DecidableEq, Repr

namespace FileError

def number : FileError → Nat
  | notFound => 2
  | «exists» => 17
  | notDirectory => 20
  | isDirectory => 21
  | nameTooLong => 36
  | badStream => 9

def message : FileError → String
  | notFound => "No such file or directory"
  | «exists» => "File exists"
  | notDirectory => "Not a directory"
  | isDirectory => "Is a directory"
  | nameTooLong => "File name too long"
  | badStream => "Bad file descriptor"

end FileError

inductive Entry where
  | file (content : List UInt8)
  | directory
  deriving DecidableEq, Repr

abbrev FileName := List UInt8

abbrev Place := List FileName

structure FileTree where
  entries : List (Place × Entry) := []
  here : Place := []
  deriving DecidableEq, Repr

namespace Path

def slash : UInt8 := 0x2f

def here : FileName := [0x2e]

def up : FileName := [0x2e, 0x2e]

def split : List UInt8 → List FileName
  | [] => [[]]
  | byte :: rest =>
    match split rest with
    | [] => [[byte]]
    | part :: parts => if byte = slash then [] :: part :: parts else (byte :: part) :: parts

end Path

/-- A path as the system takes it apart. -/
structure Path where
  length : Nat
  absolute : Bool
  parents : List FileName
  name : Option FileName
  slashed : Bool
  deriving DecidableEq, Repr

def Path.ofBytes (bytes : List UInt8) : Path :=
  let names := (Path.split bytes).filter (· ≠ [])
  { length := bytes.length
    absolute := bytes.head? = some Path.slash
    parents := names.dropLast
    name := names.getLast?
    slashed := bytes.getLast? = some Path.slash }

namespace FileTree

def lookup (tree : FileTree) (place : Place) : Option Entry :=
  if place = [] then some .directory else tree.entries.lookup place

def longestName : Nat := 255

def longestPath : Nat := 4095

def enter (tree : FileTree) (place : Place) (name : FileName) : Except FileError Place :=
  if name = Path.here then .ok place
  else if name = Path.up then .ok place.dropLast
  else if longestName < name.length then .error .nameTooLong
  else
    match tree.lookup (place ++ [name]) with
    | some .directory => .ok (place ++ [name])
    | some (.file _) => .error .notDirectory
    | none => .error .notFound

def parent (tree : FileTree) (path : Path) : Except FileError Place :=
  if longestPath < path.length then .error .nameTooLong
  else path.parents.foldlM tree.enter (if path.absolute then [] else tree.here)

def read (tree : FileTree) (path : List UInt8) : Except FileError (List UInt8) := do
  let path := Path.ofBytes path
  let place ← tree.parent path
  match path.name with
  | none => .error (if path.absolute then .isDirectory else .notFound)
  | some name =>
    if name = Path.here ∨ name = Path.up then .error .isDirectory
    else if longestName < name.length then .error .nameTooLong
    else
      match tree.lookup (place ++ [name]) with
      | some (.file content) => if path.slashed then .error .notDirectory else .ok content
      | some .directory => .error .isDirectory
      | none => .error .notFound

def create (tree : FileTree) (path content : List UInt8) : Except FileError FileTree := do
  let path := Path.ofBytes path
  let place ← tree.parent path
  match path.name with
  | none => .error (if path.absolute then .exists else .notFound)
  | some name =>
    if name = Path.here ∨ name = Path.up then .error .exists
    else if path.slashed then .error .isDirectory
    else if longestName < name.length then .error .nameTooLong
    else
      match tree.lookup (place ++ [name]) with
      | some _ => .error .exists
      | none =>
        .ok { tree with entries := tree.entries ++ [(place ++ [name], .file content)] }

def files (tree : FileTree) : List (Place × List UInt8) :=
  tree.entries.filterMap fun
    | (place, .file content) => some (place, content)
    | (_, .directory) => none

end FileTree

end ByteMachine
