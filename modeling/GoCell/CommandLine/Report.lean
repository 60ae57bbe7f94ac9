import GoCell.Error
import GoCell.Json.Fault
import GoCell.Toolchain.Execution

/-!
What an action reports: its output, its messages, its exit code, and the files it
leaves.
-/

namespace GoCell.CommandLine

/-- Why an action fails. -/
inductive Failure
  | notJson (path : String)
  | absent (path : String)
  | nothingFound (directory : String)
  | unreadable (path : String) (e : FileError)
  | notACell (fault : Json.Fault)
  | notGenerated (path : Option String) (e : GenerationError)
  | fileError (e : FileError)
  | notReferences (fault : Json.Fault)
  | notExecuted (e : ExecutionError)

def Failure.message : Failure → String
  | .notJson path => path ++ " is not a .json parameters file"
  | .absent path => path ++ " does not exist"
  | .nothingFound directory => "no .json parameter files found in " ++ directory
  | .unreadable path e => "failed to read " ++ path ++ ": " ++ e.message
  | .notACell fault => "invalid parameters: " ++ fault.message
  | .notGenerated (some path) e => path ++ ": " ++ e.message
  | .notGenerated none e => e.message
  | .fileError e => e.message
  | .notReferences fault => fault.message
  | .notExecuted e => e.message

inductive Notice
  | generated (source target summary : String)
  | batch (count : Nat)
  | failed (failure : Failure)

def Notice.text : Notice → String
  | .generated source target summary => source ++ " -> " ++ target ++ " (" ++ summary ++ ")"
  | .batch count => toString count ++ " Go programs written"
  | .failed failure => "Error: " ++ failure.message

structure Report where
  exitCode : Nat := 0
  stdout : String := ""
  notices : List Notice := []
  files : FileTree

namespace Report

/-- A report that ends with a failure. -/
def fail (r : Report) (failure : Failure) : Report :=
  { r with exitCode := 1, notices := r.notices ++ [.failed failure] }

end Report

end GoCell.CommandLine
