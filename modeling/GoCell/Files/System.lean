import GoCell.Files.Tree

/-!
The places that are there on every system. Programs are not among them: those that
can be run are known by their names.
-/

namespace GoCell.FileTree

def systemDirectories : List Place :=
  [["bin"], ["dev"], ["etc"], ["home"], ["lib"], ["opt"], ["proc"], ["root"], ["sys"], ["tmp"],
    ["usr"], ["usr", "bin"], ["usr", "lib"], ["usr", "local"], ["usr", "local", "bin"], ["var"],
    ["var", "tmp"]]

def systemFiles : List Place :=
  [["dev", "null"], ["dev", "zero"], ["etc", "hosts"], ["etc", "passwd"]]

/-- A file tree with nothing else than the places of the system and an empty current
directory. -/
def system (here : Place) : FileTree where
  entries := systemDirectories.map (·, .directory) ++ systemFiles.map (·, .file "" false) ++
    [(here, .directory)]
  here

end GoCell.FileTree
