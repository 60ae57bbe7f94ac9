import GoCell.Text.Utf8
import GoCell.Toolchain.Command
import GoCell.Toolchain.Supervision

/-!
Running the toolchain on a source file.
-/

namespace GoCell

/-- Why a command cannot be started: its file, or one of its words. -/
inductive StartError
  | file (e : FileError)
  | nulCharacter
  | longWord

def StartError.message : StartError → String
  | .file e => e.message
  | .nulCharacter => "nul byte found in provided data"
  | .longWord => "Argument list too long (os error 7)"

/-- How a program takes too long: it is killed when the time is up, or it has ended and left a
pipe to others that never close it, and the waiting for the pipe never ends. -/
inductive Overrun
  | killed (timeout : Duration)
  | endless

/-- Why a program gave no output. -/
inductive ExecutionError
  | notStarted (command : String) (e : StartError)
  | failed (status : ExitStatus) (stderr : String)
  | timedOut (overrun : Overrun)

/-- What is said of an error. Nobody is left to say anything while the waiting goes on; the text
for an endless one only tells it apart. -/
def ExecutionError.message : ExecutionError → String
  | .notStarted command e => "failed to run `" ++ command ++ "`: " ++ e.message
  | .failed status stderr => "program exited with " ++ status.text ++ ":\n" ++ stderr
  | .timedOut (.killed timeout) => "program timed out after " ++ timeout.text
  | .timedOut .endless => "program is waited for without end"

/-- The output of a process that is waited for. -/
def Process.result (p : Process) (timeout : Duration) : Except ExecutionError String :=
  match supervise timeout p with
  | some (.ended status) =>
    if status.succeeded then .ok (Text.decodeUtf8 p.stdout.bytes)
    else .error (.failed status (Text.decodeUtf8 p.stderr.bytes))
  | some .timedOut => .error (.timedOut (.killed timeout))
  | none => .error (.timedOut .endless)

/-- The number of bytes that a word of a command must not reach. -/
def maxWord : Nat := 131072

/-- Runs the toolchain on a source file: the output of the program, and the files
that it leaves. -/
def Toolchain.execute (t : Toolchain) (files : FileTree) (path : String)
    (arguments : List String) : Except ExecutionError String × FileTree :=
  let words := t.commandLine path arguments
  let failed (e : StartError) : Except ExecutionError String × FileTree :=
    (.error (.notStarted t.command e), files)
  if words.any (·.toList.contains '\x00') then failed .nulCharacter
  else match launch files t.command (words.drop 1) with
    | .error e => failed (.file e)
    | .ok (process, files) =>
      if words.any (maxWord ≤ ·.utf8ByteSize) then failed .longWord
      else (process.result t.timeout, files)

end GoCell
