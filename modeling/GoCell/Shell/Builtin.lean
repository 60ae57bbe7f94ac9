import GoCell.Shell.Expansion

/-!
The commands that a shell carries out itself, apart from those that run others.
-/

namespace GoCell.Shell

/-- The signals with a name. -/
def signalNames : List (Nat × String) :=
  [(1, "HUP"), (2, "INT"), (3, "QUIT"), (4, "ILL"), (5, "TRAP"), (6, "ABRT"), (7, "BUS"),
    (8, "FPE"), (9, "KILL"), (10, "USR1"), (11, "SEGV"), (12, "USR2"), (13, "PIPE"), (14, "ALRM"),
    (15, "TERM"), (16, "STKFLT"), (17, "CHLD"), (18, "CONT"), (19, "STOP"), (20, "TSTP"),
    (21, "TTIN"), (22, "TTOU"), (23, "URG"), (24, "XCPU"), (25, "XFSZ"), (26, "VTALRM"),
    (27, "PROF"), (28, "WINCH"), (29, "IO"), (30, "PWR"), (31, "SYS")]

/-- What a shell says of a command that a signal has ended. -/
def signalTexts : List (Nat × String) :=
  [(1, "Hangup"), (3, "Quit"), (4, "Illegal instruction"), (5, "Trace/breakpoint trap"),
    (6, "Aborted"), (7, "Bus error"), (8, "Floating point exception"), (9, "Killed"),
    (10, "User defined signal 1"), (11, "Segmentation fault"), (12, "User defined signal 2"),
    (14, "Alarm clock"), (15, "Terminated"), (16, "Stack fault"),
    (24, "CPU time limit exceeded"), (25, "File size limit exceeded"),
    (26, "Virtual timer expired"), (27, "Profiling timer expired"), (29, "I/O possible"),
    (30, "Power failure"), (31, "Bad system call")]

/-- The number of a signal, given by number or by name. -/
def signalNumber? (s : String) : Option Nat :=
  let name := match s.toList with
    | 'S' :: 'I' :: 'G' :: r => String.ofList r
    | _ => s
  if isDigits s.toList then
    if readDigits s.toList < 65 then some (readDigits s.toList) else none
  else if name = "EXIT" then some 0
  else (signalNames.find? (·.2 == name)).map (·.1)

/-- What a signal does to a process that has no trap for it. -/
inductive SignalEffect
  | none
  | halt
  | death

def signalEffect (signal : Nat) : SignalEffect :=
  if signal = 0 ∨ signal = 17 ∨ signal = 18 ∨ signal = 23 ∨ signal = 28 then .none
  else if 19 ≤ signal ∧ signal ≤ 22 then .halt
  else .death

/-- The tests on one operand. -/
def testUnary (m : Machine) (op a : String) : Bool :=
  match op with
  | "-n" => a ≠ ""
  | "-z" => a = ""
  | "-f" => m.files.isFile a
  | "-d" => m.files.isDirectory a
  | "-e" | "-r" | "-w" => a = "/dev/null" || m.files.isFile a || m.files.isDirectory a
  | "-x" =>
    match m.files.find a with
    | .ok (_, .file _ executable) => executable
    | .ok (_, .directory) => true
    | .error _ => false
  | "-s" =>
    match m.files.read a with
    | .ok content => content ≠ ""
    | .error _ => false
  | _ => false

/-- The tests on two operands; none for what is no test or no number. -/
def testBinary (a op b : String) : Option Bool :=
  let numbers (compare : Int → Int → Bool) : Option Bool :=
    match readInt? a.toList, readInt? b.toList with
    | some x, some y => some (compare x y)
    | _, _ => none
  match op with
  | "=" | "==" => some (a = b)
  | "!=" => some (a ≠ b)
  | "-eq" => numbers (· == ·)
  | "-ne" => numbers (· != ·)
  | "-lt" => numbers (· < ·)
  | "-le" => numbers (· ≤ ·)
  | "-gt" => numbers (· > ·)
  | "-ge" => numbers (· ≥ ·)
  | _ => none

/-- The value of a test; none where it is malformed. -/
def evalTest (m : Machine) : Nat → List String → Option Bool
  | 0, _ => none
  | _, [] => some false
  | _, [a] => some (a ≠ "")
  | bound + 1, words =>
    match words with
    | [a, op, b] =>
      match testBinary a op b with
      | some result => some result
      | none => combined bound words
    | words => combined bound words
where
  combined (bound : Nat) (words : List String) : Option Bool :=
    match words.idxOf? "-o", words.idxOf? "-a" with
    | some i, _ => do
      let a ← evalTest m bound (words.take i)
      let b ← evalTest m bound (words.drop (i + 1))
      return a || b
    | none, some i => do
      let a ← evalTest m bound (words.take i)
      let b ← evalTest m bound (words.drop (i + 1))
      return a && b
    | none, none =>
      match words with
      | "!" :: rest => (evalTest m bound rest).map (!·)
      | [op, a] => some (testUnary m op a)
      | "(" :: rest =>
        if rest.getLast? = some ")" then evalTest m bound rest.dropLast else none
      | _ => none

namespace Machine

def test (m : Machine) (words : List String) : Machine :=
  match evalTest m (words.length + 2) words with
  | some true => m.setStatus 0
  | some false => m.setStatus 1
  | none => (m.complain "test: unexpected operator").setStatus 2

/-- A number of loops, or of arguments, given as the first word. -/
def countOf (words : List String) : Nat :=
  match words with
  | w :: _ => readDigits (w.toList.takeWhile Char.isDigit)
  | [] => 1

def exit (m : Machine) (words : List String) : Machine :=
  match words with
  | [] => { m with flow := .exit }
  | w :: _ =>
    if isDigits w.toList then { m with status := readDigits w.toList % 256, flow := .exit }
    else m.abort ("exit: Illegal number: " ++ w)

def shift (m : Machine) (words : List String) : Machine :=
  let n := countOf words
  if m.arguments.length < n then m.abort "shift: can't shift that many"
  else { m with arguments := m.arguments.drop n, status := 0 }

/-- Sets one option of the shell, by its letter. -/
def setOption (m : Machine) (on : Bool) (letter : Char) : Machine :=
  match letter with
  | 'e' => { m with stopOnFailure := on }
  | 'u' => { m with needNames := on }
  | 'f' => { m with keepPatterns := on }
  | _ => m

def set (m : Machine) : List String → Machine
  | [] => m.setStatus 0
  | "--" :: arguments => { m with arguments, status := 0 }
  | w :: words =>
    match w.toList with
    | '-' :: letters => (letters.foldl (setOption · true) m).set words
    | '+' :: letters => (letters.foldl (setOption · false) m).set words
    | _ => { m with arguments := w :: words, status := 0 }

/-- Assigns the words of a command that declares variables. -/
def declare (m : Machine) (words : List String) : Machine :=
  words.foldl (fun m w =>
    match w.toList.dropWhile (· ≠ '=') with
    | _ :: value => m.assign (String.ofList (w.toList.takeWhile (· ≠ '='))) (String.ofList value)
    | [] => m) (m.setStatus 0)

/-- Assigns some words, and gives the variables to programs. -/
def exports (m : Machine) (words : List String) : Machine :=
  let names := words.map fun w => String.ofList (w.toList.takeWhile (· ≠ '='))
  { m.declare words with exported := names ++ m.exported }

def changeDirectory (m : Machine) (words : List String) : Machine :=
  let path := words.head?.getD "/"
  match m.files.find path with
  | .ok (place, .directory) => { m with files := { m.files with here := place }, status := 0 }
  | _ => (m.complain ("cd: can't cd to " ++ path)).setStatus 2

def workingDirectory (m : Machine) : Machine :=
  (m.writeText 1 ("/" ++ "/".intercalate m.files.here ++ "\n")).setStatus 0

/-- Cuts the first line off the input. The first result says whether it had an end. -/
def readLine (m : Machine) : Bool × List UInt8 × Machine :=
  let s := m.stdin
  let bytes := s.unroll (s.bytes.length + s.cycle.length)
  let line := bytes.takeWhile (· ≠ 10)
  let ended := line.length < bytes.length
  (ended, line, { m with stdin := s.drop (line.length + (if ended then 1 else 0)) })

/-- Assigns the fields of a line to names; the last name takes all that is left. -/
def assignFields (m : Machine) : List String → List Char → Machine
  | [], _ => m
  | [name], l =>
    let isSeparator (c : Char) : Bool := m.separators.toList.contains c
    m.assign name (String.ofList (Text.dropEndWhile isSeparator (l.dropWhile isSeparator)))
  | name :: names, l =>
    let isSeparator (c : Char) : Bool := m.separators.toList.contains c
    let l := l.dropWhile isSeparator
    (m.assign name (String.ofList (l.takeWhile (!isSeparator ·)))).assignFields names
      ((l.dropWhile (!isSeparator ·)).dropWhile isSeparator)

/-- A line without the backslashes that quote what follows them. -/
def unescape : List Char → List Char
  | '\\' :: c :: r => c :: unescape r
  | c :: r => c :: unescape r
  | [] => []

def readFields (m : Machine) (words : List String) : Machine :=
  let (ended, line, m) := m.readLine
  if !m.stdin.isFinite && !ended then { m with flow := .stuck false }
  else
    let names := words.filter fun w => w.toList.head? != some '-'
    let text := (Text.decodeUtf8 line).toList
    let m := m.assignFields (if names.isEmpty then ["REPLY"] else names)
      (if words.contains "-r" then text else unescape text)
    m.setStatus (if ended then 0 else 1)

/-- Notes what to do at signals. -/
def trap (m : Machine) (words : List String) : Machine :=
  match words with
  | action :: signals =>
    let names := signals.filterMap fun s => (signalNumber? s).map toString
    let kept := m.traps.filter fun t => !names.contains t.1
    let added := if action = "-" then [] else names.map (·, action)
    { m with traps := kept ++ added, status := 0 }
  | [] => m.setStatus 0

/-- Waits for the jobs with some numbers, or for all. -/
def wait (m : Machine) (words : List String) : Machine :=
  let isNamed (job : Job) : Bool :=
    words.contains (toString job.pid) ||
      words.contains ("%" ++ toString ((m.jobs.map (·.pid)).idxOf job.pid + 1))
  let wanted := if words.isEmpty then m.jobs else m.jobs.filter isNamed
  let m := wanted.foldl (fun m job =>
    match job.ends with
    | some time =>
      let m := { m with clock := max m.clock time }
      match job.killed.bind (signalTexts.lookup ·) with
      | some text => m.writeText 2 (text ++ "\n")
      | none => m
    | none => { m with flow := .stuck false }) m
  m.setStatus (if words.isEmpty then 0 else ((wanted.getLast?.map (·.status)).getD 127))

/-- Ends a job by a signal. -/
def endJob (m : Machine) (pid signal : Nat) : Machine :=
  { m with jobs := m.jobs.map fun job =>
      if job.pid == pid && job.runs m.clock then
        { job with ends := some m.clock, status := 128 + signal, killed := some signal }
      else job }

/-- What a `kill` asks for: a signal to processes, or the name of a signal. -/
inductive KillRequest
  | send (signal : Nat) (targets : List String)
  | name (signal : String)
  | bad (why : String)

/-- A process, or a job with its number. -/
def isTarget (word : String) : Bool :=
  match word.toList with
  | '%' :: _ => true
  | '-' :: r => isDigits r
  | l => isDigits l

def killRequest (words : List String) : KillRequest :=
  let send (signal : Nat) (targets : List String) : KillRequest :=
    if targets.isEmpty then
      .bad ("Usage: kill [-s sigspec | -signum | -sigspec] [pid | job]... or\n" ++
        "kill -l [exitstatus]")
    else match targets.find? (!isTarget ·) with
      | some word => .bad ("Illegal number: " ++ word)
      | none => .send signal targets
  match words with
  | "-l" :: signal :: _ => .name signal
  | "-s" :: s :: targets =>
    match signalNumber? s with
    | some signal => send signal targets
    | none => .bad ("invalid signal number or name: " ++ s)
  | "--" :: targets => send 15 targets
  | w :: targets =>
    match w.toList with
    | '-' :: c :: r =>
      match signalNumber? (String.ofList (c :: r)) with
      | some signal => send signal (if targets.head? = some "--" then targets.drop 1 else targets)
      | none => .bad ("Illegal option -" ++ String.singleton c)
    | _ => send 15 words
  | [] => send 15 []

/-- A file of another program in place of a built-in one: makes, removes or lists
files. -/
def fileCommand? (m : Machine) (name : String) (words : List String) : Option Machine :=
  let operands := words.filter fun w => w.toList.head? != some '-'
  match name with
  | "touch" =>
    some (operands.foldl (fun m path =>
      match m.files.read path with
      | .ok _ => m
      | .error _ =>
        match m.files.write path "" with
        | .ok files => { m with files }
        | .error _ => m) (m.setStatus 0))
  | "mkdir" =>
    some (operands.foldl (fun m path =>
      let failed (why : String) : Machine :=
        (m.writeText 2 ("mkdir: cannot create directory '" ++ path ++ "': " ++ why ++
          "\n")).setStatus 1
      match m.files.locate path with
      | .ok place =>
        if (m.files.node? place).isSome then
          if words.contains "-p" then m else failed "File exists"
        else { m with files := m.files.set place .directory }
      | .error e => failed e.text) (m.setStatus 0))
  | "chmod" =>
    let runnable : Bool := match operands.head? with
      | some mode => mode.toList.contains 'x' || mode.toList.any fun c => '1' ≤ c && c ≤ '7' &&
          c.toNat % 2 == 1
      | none => false
    some ((operands.drop 1).foldl (fun m path =>
      match m.files.find path with
      | .ok (place, .file content _) =>
        { m with files := m.files.set place (.file content runnable) }
      | .ok _ => m
      | .error e =>
        (m.writeText 2 ("chmod: cannot access '" ++ path ++ "': " ++ e.text ++ "\n")).setStatus 1)
      (m.setStatus 0))
  | "rm" =>
    let has (letter : Char) : Bool := words.any fun w =>
      w.toList.head? == some '-' && w.toList.contains letter
    some (operands.foldl (fun m path =>
      let failed (why : String) : Machine :=
        (m.writeText 2 ("rm: cannot remove '" ++ path ++ "': " ++ why ++ "\n")).setStatus 1
      match m.files.find path with
      | .ok (place, node) =>
        match node, has 'r' || has 'R' with
        | .directory, false => failed "Is a directory"
        | _, _ =>
          { m with files := { m.files with
              entries := m.files.entries.filter fun e => !place.isPrefixOf e.1 } }
      | .error e => if has 'f' then m else failed e.text) (m.setStatus 0))
  | "ls" =>
    some ((if operands.isEmpty then ["."] else operands).foldl (fun m path =>
      match m.files.find path with
      | .ok (place, .directory) =>
        let names := (m.files.children place).filter fun n => n.toList.head? != some '.'
        m.writeText 1 (String.join (names.map (· ++ "\n")))
      | .ok _ => m.writeText 1 (path ++ "\n")
      | .error e =>
        (m.writeText 2 ("ls: cannot access '" ++ path ++ "': " ++ e.text ++ "\n")).setStatus 2)
      (m.setStatus 0))
  | "tee" =>
    let m := operands.foldl (fun m path =>
      match m.files.write path (Text.decodeUtf8 m.stdin.bytes) with
      | .ok files => { m with files }
      | .error _ => m) m
    some (({ m with stdin := {} }.write 1 m.stdin).setStatus 0)
  | _ => none

end Machine

end GoCell.Shell
