import GoCell.Shell.Evaluation

/-!
Processes, seen from the one that starts them: when a process ends and how, what it
and its children write, and when the last of them lets go of each pipe. Times are
in milliseconds from the start.
-/

namespace GoCell

inductive ExitStatus
  | code (n : Nat)
  | signal (n : Nat)
  deriving DecidableEq

namespace ExitStatus

def succeeded (s : ExitStatus) : Bool := s == .code 0

def text : ExitStatus → String
  | .code n => "exit status: " ++ toString n
  | .signal n =>
    let name := match Shell.signalNames.lookup n with
      | some name => " (SIG" ++ name ++ ")"
      | none => ""
    "signal: " ++ toString n ++ name

end ExitStatus

/-- What a process and its children do when they are left alone. A time that is
absent never comes. -/
structure Process where
  exit : Option (Nat × ExitStatus)
  stdout : ByteStream := {}
  stderr : ByteStream := {}
  stdoutClosed : Option Nat
  stderrClosed : Option Nat

/-- The later of two times. -/
def later : Option Nat → Option Nat → Option Nat
  | some a, some b => some (max a b)
  | _, _ => none

/-- How long a process takes to start. -/
def startup : Nat := 1

namespace Shell.Machine

/-- The process of a script that has run to its end. -/
def toProcess (m : Machine) : Process :=
  let exit := match m.flow with
    | .stuck _ => none
    | .signalled n => some (m.clock + startup, .signal n)
    | _ => some (m.clock + startup, .code (m.status % 256))
  let closed (n : Nat) : Option Nat :=
    (m.jobs.filter (·.sinks.contains n)).foldl (fun t job => later t job.ends) (exit.map (·.1))
  { exit
    stdout := m.sinkContent 0
    stderr := m.sinkContent 1
    stdoutClosed := closed 0
    stderrClosed := closed 1 }

end Shell.Machine

/-- The programs that are found without a path. -/
def programs : List String :=
  ["basename", "bash", "cat", "chmod", "cut", "dash", "dirname", "echo", "env", "false",
    "head", "kill", "ls", "mkdir", "nohup", "printf", "pwd", "rev", "rm", "seq", "sh",
    "sleep", "sort", "tac", "tail", "tee", "test", "timeout", "touch", "tr", "true",
    "uniq", "wc", "yes", "["]

/-- The programs that do what the built-in commands of that name do. -/
def builtinPrograms : List String := ["[", "env", "kill", "nohup", "pwd", "test", "timeout"]

open Shell in
/-- Starts a command in the current directory, without input, and lets it run. -/
def launch (files : FileTree) (command : String) (arguments : List String) :
    Except FileError (Process × FileTree) :=
  let machine : Machine := { name := command, arguments, files }
  let ended (m : Machine) : Process × FileTree :=
    (m.toProcess, { m.files with here := files.here })
  let known := Machine.programName command
  if programs.contains known then
    .ok (ended (if builtinPrograms.contains known then runNamed maxRun known arguments machine
      else runProgram maxRun command arguments machine))
  else if !command.toList.contains '/' then
    .error (if command = "." ∨ command = ".." then .denied else .missing)
  else match files.find command with
    | .error e => .error e
    | .ok (_, .file content true) =>
      match interpreter? content with
      | some (program :: _) =>
        let name := Machine.programName program
        if name = "/usr/bin/env" ∨ programs.contains name then
          .ok (ended (runFile maxRun command content arguments machine))
        else .error .missing
      | _ => .error .denied
    | .ok _ => .error .denied

end GoCell
