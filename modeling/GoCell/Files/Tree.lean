import GoCell.Files.Path

/-!
A tree of files, kept as a list of places. Directories exist where a place is
noted for them or lies below them.
-/

namespace GoCell

/-- Why a file cannot be read, written or run. -/
inductive FileError
  | missing
  | denied
  | notDirectory
  | isDirectory
  deriving DecidableEq

def FileError.text : FileError → String
  | .missing => "No such file or directory"
  | .denied => "Permission denied"
  | .notDirectory => "Not a directory"
  | .isDirectory => "Is a directory"

def FileError.number : FileError → Nat
  | .missing => 2
  | .denied => 13
  | .notDirectory => 20
  | .isDirectory => 21

/-- The text with the number that the system has for the error. -/
def FileError.message (e : FileError) : String :=
  e.text ++ " (os error " ++ toString e.number ++ ")"

/-- The names on the way from the root. -/
abbrev Place := List String

inductive Node
  | file (content : String) (executable : Bool)
  | directory

/-- Places below the current directory `here` and elsewhere, with what is there. -/
structure FileTree where
  entries : List (Place × Node) := []
  here : Place := []

namespace FileTree

def node? (t : FileTree) (place : Place) : Option Node :=
  match t.entries.lookup place with
  | some node => some node
  | none =>
    if place = [] ∨ t.entries.any (place.isPrefixOf ·.1) then some .directory else none

/-- Fails unless there is a directory at a place. -/
def enter (t : FileTree) (place : Place) : Except FileError Unit :=
  match t.node? place with
  | some .directory => .ok ()
  | some (.file _ _) => .error .notDirectory
  | none => .error .missing

/-- Follows names from a place. All but the last must be directories. -/
def follow (t : FileTree) : Place → List String → Except FileError Place
  | place, [] => .ok place
  | place, name :: names => do
    t.enter place
    if name = "." then follow t place names
    else if name = ".." then follow t place.dropLast names
    else follow t (place ++ [name]) names

/-- The place that a path leads to, whether or not anything is there. -/
def locate (t : FileTree) (path : String) : Except FileError Place :=
  if path = "" then .error .missing
  else t.follow (if Path.isAbsolute path then [] else t.here) (Path.names path)

/-- The place that a path leads to and what is there. -/
def find (t : FileTree) (path : String) : Except FileError (Place × Node) := do
  let place ← t.locate path
  match t.node? place with
  | none => .error .missing
  | some .directory => .ok (place, .directory)
  | some file => if Path.namesDirectory path then .error .notDirectory else .ok (place, file)

def isFile (t : FileTree) (path : String) : Bool :=
  match t.find path with
  | .ok (_, .file _ _) => true
  | _ => false

def isDirectory (t : FileTree) (path : String) : Bool :=
  match t.find path with
  | .ok (_, .directory) => true
  | _ => false

def read (t : FileTree) (path : String) : Except FileError String := do
  match ← t.find path with
  | (_, .file content _) => .ok content
  | (_, .directory) => .error .isDirectory

/-- Sets what is at a place. -/
def set (t : FileTree) (place : Place) (node : Node) : FileTree :=
  if t.entries.any (·.1 == place) then
    { t with entries := t.entries.map fun e => if e.1 == place then (place, node) else e }
  else { t with entries := t.entries ++ [(place, node)] }

/-- Writes a file, which stays executable if it was. -/
def write (t : FileTree) (path content : String) : Except FileError FileTree := do
  let place ← t.locate path
  match t.node? place with
  | some .directory => .error .isDirectory
  | some (.file _ executable) =>
    if Path.namesDirectory path then .error .notDirectory
    else .ok (t.set place (.file content executable))
  | none =>
    t.enter place.dropLast
    if Path.namesDirectory path then .error .isDirectory
    else .ok (t.set place (.file content false))

/-- The names in a directory, in order. -/
def children (t : FileTree) (place : Place) : List String :=
  let names := t.entries.filterMap fun (p, _) =>
    if place.isPrefixOf p then (p.drop place.length).head? else none
  (names.mergeSort (fun a b => decide (a ≤ b))).eraseDups

/-- The paths of everything below a directory, the directory first, down to a
depth of `levels`. -/
def walk (t : FileTree) : Nat → String → Place → List String
  | 0, path, _ => [path]
  | levels + 1, path, place =>
    path :: (t.children place).flatMap fun name =>
      t.walk levels (Path.join path name) (place ++ [name])

/-- The paths of everything below a directory, the directory first. -/
def paths (t : FileTree) (root : String) : List String :=
  match t.find root with
  | .ok (place, _) => t.walk ((t.entries.map (·.1.length)).foldl max 0) root place
  | .error _ => []

end FileTree

end GoCell
