import GoCell.CommandLine.Generation
import GoCell.CommandLine.Options
import GoCell.Decoding

/-!
Running a program and decoding what it prints; and what each command line does.
-/

namespace GoCell.CommandLine

/-- The file that a program is compiled from while it runs. -/
def sourcePlace : Place := ["tmp", "goblock-000000.go"]

def sourcePath : String := "/tmp/goblock-000000.go"

/-- The file tree without the file of a program. -/
def withoutSource (files : FileTree) : FileTree :=
  { files with entries := files.entries.filter (·.1 != sourcePlace) }

/-- The references in a file. -/
def readReferences (files : FileTree) (path : Option String) : Except Failure References :=
  match path with
  | none => .ok []
  | some path => do
    let text ← (files.read path).mapError .fileError
    (References.parse text).mapError .notReferences

/-- The cell in a file, its source text, and the arguments of its program. -/
def prepare (settings : Settings) (files : FileTree) (path : String)
    (references : Option String) : Except Failure (Cell × String × List String) := do
  let text ← (files.read path).mapError (.unreadable path)
  let cell ← (Cell.parse text).mapError .notACell
  let code ← (cell.generate settings).mapError (.notGenerated none)
  let refs ← readReferences files references
  return (cell, code, refs.resolve cell.arguments)

/-- The text of a value on a line of its own. -/
def valueLine (v : Value) : String := v.toJson.render ++ "\n"

/-- Runs the program of the cell in a file and decodes what it prints. Where it is waited for
without end nobody is left to report anything; the failure stands for that. -/
def runFile (settings : Settings) (path command : String) (timeout : Duration)
    (shape : Option ResultShape) (references : Option String) (files : FileTree) : Report :=
  match prepare settings files path references with
  | .error failure => Report.fail { files } failure
  | .ok (cell, code, arguments) =>
    let toolchain : Toolchain := { command, flags := cell.flags, timeout }
    let withSource := files.set sourcePlace (.file code false)
    let (result, after) := toolchain.execute withSource sourcePath arguments
    let files := withoutSource after
    match result with
    | .error e => Report.fail { files } (.notExecuted e)
    | .ok output =>
      { files, stdout := valueLine (decodeOutput (shape.getD cell.results) output) }

/-- What a command line does, given the standard input and the files. -/
def perform (words : List String) (stdin : String) (files : FileTree) : Report :=
  match parse words with
  | none => { exitCode := 2, files }
  | some ⟨settings, action⟩ =>
    match action with
    | .generate _ true json => generateStdin settings json stdin files
    | .generate (some path) false _ => generatePath settings path files
    | .generate none false _ => { exitCode := 2, files }
    | .run path command timeout shape references =>
      runFile settings path command timeout shape references files
    | .decode shape => { files, stdout := valueLine (decodeOutput shape stdin) }
    | .help => { files }

end GoCell.CommandLine
