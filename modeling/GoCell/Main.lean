import GoCell.CommandLine.Running
import GoCell.Files.System

/-!
The program. It reads the standard input and the files that the command line names,
prints what is reported, and writes the files that are new or changed.
-/

namespace GoCell.CommandLine

/-- What is printed where the command line is misused. -/
def usage : String :=
  "Usage: gocell [--strict] [--default-package NAME] COMMAND\n" ++
  "  generate FILE_OR_DIRECTORY\n" ++
  "  generate --stdin [--json]\n" ++
  "  run FILE [--command NAME] [--timeout-secs N] [--shape SHAPE] [--refs FILE]\n" ++
  "  decode [--shape SHAPE]\n" ++
  "SHAPE is raw, scalar or table.\n"

/-- The rest of a stream. -/
partial def readRest (s : IO.FS.Stream) : IO String := do
  let line ← s.getLine
  if line.isEmpty then return "" else return line ++ (← readRest s)

/-- A file that can be read, or a directory with all that is below it. -/
partial def load (e : IO.FS.DirEntry) : IO (List (Place × Node)) := do
  let place := Path.place e.path.toString
  if ← e.path.isDir then
    let below ← (← e.path.readDir).toList.mapM load
    return (place, .directory) :: below.flatten
  else if ← e.path.pathExists then
    try
      let content ← IO.FS.readFile e.path
      return [(place, .file content ("#!".isPrefixOf content))]
    catch _ => return []
  else return []

/-- Whether an action reads the standard input. -/
def readsStdin (words : List String) : Bool :=
  match parse words with
  | some ⟨_, .generate _ fromStdin _⟩ => fromStdin
  | some ⟨_, .decode _⟩ => true
  | _ => false

/-- A number of nanoseconds as milliseconds with one place. -/
def tenths (nanos : Nat) : String :=
  let n := (nanos + 50000) / 100000
  toString (n / 10) ++ "." ++ toString (n % 10) ++ "ms"

/-- The file tree with the files that some words name. -/
def loadAll (here : IO.FS.DirEntry) (words : List String) : IO FileTree := do
  let found ← words.mapM fun word => load { root := here.path, fileName := word }
  return found.flatten.foldl (fun t e => t.set e.1 e.2)
    (FileTree.system (Path.place here.path.toString))

/-- Writes the files that are new or changed. -/
def store (before after : FileTree) : IO Unit := do
  for (place, node) in after.entries do
    match node, before.entries.lookup place with
    | .directory, _ => pure ()
    | .file content _, some (.file old _) =>
      if content ≠ old then IO.FS.writeFile ("/" ++ "/".intercalate place) content
    | .file content _, _ => IO.FS.writeFile ("/" ++ "/".intercalate place) content

end GoCell.CommandLine

open GoCell.CommandLine in
def main (words : List String) : IO UInt32 := do
  let start ← IO.monoNanosNow
  let stdin ← if readsStdin words then readRest (← IO.getStdin) else pure ""
  let files ← loadAll { root := ← IO.currentDir, fileName := "." } words
  let report := perform words stdin files
  store files report.files
  IO.print report.stdout
  for notice in report.notices do
    match notice with
    | .batch _ => IO.eprintln (notice.text ++ " in " ++ tenths ((← IO.monoNanosNow) - start))
    | notice => IO.eprintln notice.text
  if report.exitCode = 2 then IO.eprint usage
  else if (parse words).any (·.action matches .help) then IO.print usage
  return UInt32.ofNat report.exitCode
