import GoCell.Cell.Reader
import GoCell.Toolchain.Duration
import GoCell.Value.Display

/-!
The command that compiles and runs a program, and its arguments.
-/

namespace GoCell

/-- How the toolchain is called. -/
structure Toolchain where
  command : String := "go"
  flags : List String := []
  timeout : Duration := .ofSeconds 30

/-- The words of the command that runs a source file. -/
def Toolchain.commandLine (t : Toolchain) (path : String) (arguments : List String) :
    List String :=
  t.command :: "run" :: t.flags ++ path :: arguments

/-- Arguments that name a value are replaced by its display. -/
def References.resolve (refs : References) (arguments : List String) : List String :=
  arguments.map fun a => match refs.lookup a with
    | some v => v.display
    | none => a

end GoCell
