import GoCell.CommandLine.Report
import GoCell.Program.Assembly
import GoCell.Program.Summary
import GoCell.Value.Json

/-!
Generating programs: from standard input, from a file, or from all the files of a
directory.
-/

namespace GoCell

/-- The sections of a program as JSON, with its source text. -/
def Program.toJson (p : Program) : Json :=
  let written (text : Option String) : Json := match text with
    | some s => .string s
    | none => .null
  .object [("code", .string p.render), ("sections", .object [
    ("body", .string p.body),
    ("imports", written p.imports),
    ("package", .string p.package),
    ("table_helpers", written p.accessors),
    ("variables", written p.declarations)])]

namespace CommandLine

/-- Reads a cell from a text and assembles its program. -/
def assembleText (settings : Settings) (path : Option String) (text : String) :
    Except Failure Program :=
  match Cell.parse text with
  | .error fault => .error (.notACell fault)
  | .ok cell => (cell.assemble settings).mapError (.notGenerated path)

def generateStdin (settings : Settings) (json : Bool) (stdin : String) (files : FileTree) :
    Report :=
  match assembleText settings none stdin with
  | .error failure => Report.fail { files } failure
  | .ok program =>
    { files, stdout := if json then program.toJson.render ++ "\n" else program.render }

/-- Writes the program of one file beside it. -/
def generateFile (settings : Settings) (files : FileTree) (path : String) :
    Except Failure (FileTree × Notice) := do
  let text ← (files.read path).mapError (.unreadable path)
  let program ← assembleText settings (some path) text
  let target := Path.withExtension path "go"
  let files ← (files.write target program.render).mapError .fileError
  return (files, .generated path target program.summary)

/-- Writes the programs of some files, one after another, up to the first failure. -/
def generateEach (settings : Settings) : List String → Report → Report
  | [], r => r
  | path :: paths, r =>
    match generateFile settings r.files path with
    | .error failure => r.fail failure
    | .ok (files, notice) =>
      generateEach settings paths { r with files, notices := r.notices ++ [notice] }

def isCellFile (path : String) : Bool := Path.extension? path == some "json"

/-- Writes the programs of the files that are found in a directory. -/
def generateFound (settings : Settings) (directory : String) (found : List String)
    (files : FileTree) : Report :=
  match found.filter isCellFile with
  | [] => Report.fail { files } (.nothingFound directory)
  | paths =>
    let report := generateEach settings paths { files }
    if report.exitCode = 0 ∧ 1 < paths.length then
      { report with notices := report.notices ++ [.batch paths.length] }
    else report

def generatePath (settings : Settings) (path : String) (files : FileTree) : Report :=
  if files.isFile path then
    if isCellFile path then generateEach settings [path] { files }
    else Report.fail { files } (.notJson path)
  else if files.isDirectory path then generateFound settings path (files.paths path) files
  else Report.fail { files } (.absent path)

end CommandLine

end GoCell
