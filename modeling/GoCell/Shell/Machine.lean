import GoCell.Shell.Script
import GoCell.Shell.Utility

/-!
The state of a running script. Time is counted in milliseconds and passes only
where a program waits. Output is collected in sinks, each piece with the time at
which it was written, so that what runs in the background falls into place.
-/

namespace GoCell.Shell

/-- What a file descriptor is open on. -/
inductive Target
  | sink (n : Nat)
  | file (path : String)
  | nowhere

/-- Why the next command is not run. `stuck` means that nothing more happens; one
that is `writing` ends when its reader does. -/
inductive Flow
  | go
  | leave (levels : Nat)
  | again (levels : Nat)
  | return
  | exit
  | signalled (signal : Nat)
  | stuck (writing : Bool)
  deriving DecidableEq

/-- A command in the background: when it ends, if it does, how, and the sinks it
may write to. -/
structure Job where
  pid : Nat
  ends : Option Nat
  status : Nat
  sinks : List Nat
  /-- The signal that ended it. -/
  killed : Option Nat := none

/-- Whether a job still runs at a time. -/
def Job.runs (job : Job) (clock : Nat) : Bool :=
  match job.ends with
  | some time => Nat.blt clock time
  | none => true

structure Machine where
  name : String
  arguments : List String
  values : List (String × String) := []
  functions : List (String × Command) := []
  files : FileTree
  stdin : ByteStream := {}
  targets : List (Nat × Target) := [(1, .sink 0), (2, .sink 1)]
  /-- The pieces in each sink, the last one first. -/
  sinks : List (Nat × List (Nat × ByteStream)) := [(0, []), (1, [])]
  clock : Nat := 0
  status : Nat := 0
  flow : Flow := .go
  jobs : List Job := []
  line : Nat := 0
  /-- How many loops the command that is run stands in. -/
  loops : Nat := 0
  /-- The variables that programs are given. -/
  exported : List String := []
  /-- Whether the next program takes the place of the script. -/
  replaced : Bool := false
  stopOnFailure : Bool := false
  needNames : Bool := false
  keepPatterns : Bool := false
  /-- What is run where a signal, or the end of the script, is met. -/
  traps : List (String × String) := []

/-- The process number of every script. -/
def mainPid : Nat := 4242

namespace Machine

def runs (m : Machine) : Bool := m.flow == .go

def setStatus (m : Machine) (status : Nat) : Machine := { m with status }

def lookup (m : Machine) (name : String) : Option String := m.values.lookup name

def assign (m : Machine) (name value : String) : Machine :=
  { m with values := (name, value) :: m.values.filter (·.1 != name) }

def unassign (m : Machine) (name : String) : Machine :=
  { m with values := m.values.filter (·.1 != name) }

/-- A sink that nothing else writes to. -/
def newSink (m : Machine) : Nat × Machine :=
  let n := m.sinks.length
  (n, { m with sinks := (n, []) :: m.sinks })

def addToSink (m : Machine) (n : Nat) (piece : ByteStream) : Machine :=
  { m with sinks := m.sinks.map fun (i, pieces) =>
      if i = n then (i, (m.clock, piece) :: pieces) else (i, pieces) }

/-- All that was written to a sink, in order of time. -/
def sinkContent (m : Machine) (n : Nat) : ByteStream :=
  let pieces := ((m.sinks.lookup n).getD []).reverse.mergeSort fun a b => a.1 ≤ b.1
  pieces.foldr (fun piece rest => piece.2.append rest) {}

/-- Adds to a file. -/
def addToFile (m : Machine) (path : String) (bytes : List UInt8) : Machine :=
  let old := match m.files.read path with
    | .ok content => content
    | .error _ => ""
  match m.files.write path (old ++ Text.decodeUtf8 bytes) with
  | .ok files => { m with files }
  | .error _ => m

/-- Writes to a descriptor. What writes without end goes no further. -/
def write (m : Machine) (descriptor : Nat) (data : ByteStream) : Machine :=
  if data.isFinite && data.bytes.isEmpty then m
  else match m.targets.lookup descriptor with
    | some (.sink n) =>
      let m := m.addToSink n data
      if data.isFinite then m else { m with flow := .stuck true }
    | some (.file path) =>
      if data.isFinite then m.addToFile path data.bytes else { m with flow := .stuck false }
    | some .nowhere | none => if data.isFinite then m else { m with flow := .stuck false }

def writeText (m : Machine) (descriptor : Nat) (text : String) : Machine :=
  m.write descriptor (.ofBytes (Text.encodeUtf8 text))

/-- Reports a failure of the script itself. -/
def complain (m : Machine) (text : String) : Machine :=
  m.writeText 2 (m.name ++ ": " ++ toString m.line ++ ": " ++ text ++ "\n")

/-- Reports a failure after which a script does not go on. -/
def abort (m : Machine) (text : String) : Machine :=
  { m.complain text with status := 2, flow := .exit }

/-- The files that a program can read by name. -/
def readFile (m : Machine) : ReadFile := fun path =>
  match path with
  | "/dev/null" => .ok {}
  | "/dev/zero" => .ok { cycle := [0] }
  | "/dev/stdin" => .ok m.stdin
  | path => (m.files.read path).map fun content => .ofBytes (Text.encodeUtf8 content)

/-- The programs that read their standard input. -/
def readsInput (name : String) (arguments : List String) : Bool :=
  let operands := arguments.filter fun a => a.toList.head? != some '-'
  match name with
  | "tr" => true
  | "cat" | "wc" | "sort" | "uniq" | "rev" | "tac" => operands.isEmpty
  | "head" | "tail" | "cut" => true
  | _ => false

/-- Lets a program run. -/
def reply (m : Machine) (name : String) (arguments : List String) (r : Reply) : Machine :=
  let m := if readsInput name arguments then { m with stdin := {} } else m
  let m := { m.writeText 2 r.err with clock := m.clock + r.elapsed, status := r.status }
  if r.endless then { m with flow := .stuck false } else m.write 1 r.out

/-- A machine for commands whose changes to variables are not kept. -/
def fork (m : Machine) : Machine := { m with jobs := [], traps := [], replaced := false }

/-- The machine after a fork has ended: files and output are shared, and a signal to
the script reaches it from everywhere. -/
def join (m child : Machine) : Machine :=
  let flow := match child.flow with
    | .stuck writing => .stuck writing
    | .signalled signal => .signalled signal
    | _ => m.flow
  { m with
    files := { child.files with here := m.files.here }
    sinks := child.sinks
    clock := child.clock
    jobs := m.jobs ++ child.jobs
    status := child.status
    flow }

end Machine

end GoCell.Shell
