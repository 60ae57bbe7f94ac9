/-!
Paths: names separated by slashes. A path is kept as it was given; its names are
read off it.
-/

namespace GoCell.Path

def names (path : String) : List String :=
  ((path.toList.splitOn '/').map String.ofList).filter (· ≠ "")

/-- The names on the way that an absolute path takes, with steps back undone. -/
def place (path : String) : List String :=
  (names path).foldl (fun place name =>
    if name = "." then place
    else if name = ".." then place.dropLast
    else place ++ [name]) []

def isAbsolute (path : String) : Bool := path.toList.head? == some '/'

/-- Whether a path can only name a directory. -/
def namesDirectory (path : String) : Bool :=
  match (path.toList.splitOn '/').getLast? with
  | some last => last = [] || last = ['.'] || last = ['.', '.']
  | none => false

/-- The name of what a path leads to. -/
def name? (path : String) : Option String :=
  match ((names path).filter (· ≠ ".")).getLast? with
  | some ".." => none
  | last => last

/-- What follows the last point of a name, unless the name starts with it. -/
def extension? (path : String) : Option String :=
  match name? path with
  | none => none
  | some name =>
    let pieces := name.toList.splitOn '.'
    match pieces.getLast? with
    | some last =>
      if 2 ≤ pieces.length ∧ last.length + 1 < name.length then some (String.ofList last)
      else none
    | none => none

/-- A path with another extension in place of its own. -/
def withExtension (path extension : String) : String :=
  match extension? path with
  | some old => String.ofList (path.toList.take (path.length - old.length)) ++ extension
  | none => path ++ "." ++ extension

/-- The path of an entry of a directory. -/
def join (directory name : String) : String :=
  if directory.toList.getLast? == some '/' then directory ++ name
  else directory ++ "/" ++ name

end GoCell.Path
