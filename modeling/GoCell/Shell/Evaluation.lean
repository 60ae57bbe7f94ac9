import GoCell.Shell.Builtin

/-!
Running scripts. Every function has a bound on the depth of what it may still run;
a script that reaches the bound counts as one that never ends.
-/

namespace GoCell.Shell

namespace Machine

/-- A script that never ends. What it has written may be all that is read of it. -/
def exhausted (m : Machine) : Machine :=
  let wrote := match m.targets.lookup 1 with
    | some (.sink n) => !((m.sinks.lookup n).getD []).isEmpty
    | _ => false
  { m with flow := .stuck wrote }

/-- Opens a file for writing, or reports why it cannot be. -/
def openFile (m : Machine) (descriptor : Nat) (append : Bool) (path : String) :
    Bool × Machine :=
  let onto (target : Target) : Bool × Machine :=
    (true, { m with targets := (descriptor, target) :: m.targets.filter (·.1 != descriptor) })
  let failed (why : String) : Bool × Machine :=
    (false, (m.complain ("cannot create " ++ path ++ ": " ++ why)).setStatus 2)
  match path with
  | "/dev/null" => onto .nowhere
  | "/dev/stdout" => onto ((m.targets.lookup 1).getD .nowhere)
  | "/dev/stderr" => onto ((m.targets.lookup 2).getD .nowhere)
  | path =>
    let old := match m.files.read path with
      | .ok content => if append then content else ""
      | .error _ => ""
    match m.files.write path old with
    | .ok files =>
      (true, { m with
        files
        targets := (descriptor, .file path) :: m.targets.filter (·.1 != descriptor) })
    | .error .isDirectory => failed "Is a directory"
    | .error .denied => failed "Permission denied"
    | .error _ => failed "Directory nonexistent"

/-- Carries out one redirection to a given word. -/
def redirect (m : Machine) (r : Redirect) (word : String) : Bool × Machine :=
  match r.kind with
  | .content => (true, { m with stdin := .ofBytes (Text.encodeUtf8 word) })
  | .read =>
    match m.readFile word with
    | .ok s => (true, { m with stdin := s })
    | .error e =>
      let why := match e with
        | .missing => "No such file"
        | e => e.text
      (false, (m.complain ("cannot open " ++ word ++ ": " ++ why)).setStatus 2)
  | .write => m.openFile r.descriptor false word
  | .append => m.openFile r.descriptor true word
  | .duplicate =>
    if r.descriptor = 0 then (true, if word = "-" then { m with stdin := {} } else m)
    else
      let others := m.targets.filter (·.1 != r.descriptor)
      match if word = "-" then none else m.targets.lookup (readDigits word.toList) with
      | some target => (true, { m with targets := (r.descriptor, target) :: others })
      | none =>
        if word = "-" then (true, { m with targets := others })
        else (false, (m.complain (word ++ ": Bad file descriptor")).setStatus 2)

/-- Ends a script on a failure, where it asks for that. -/
def checkFailure (m : Machine) (tested : Bool) : Machine :=
  if m.stopOnFailure && !tested && m.runs && m.status != 0 then { m with flow := .exit } else m

/-- Runs something inside a loop. -/
def inLoop (m : Machine) (body : Machine → Machine) : Machine :=
  { body { m with loops := m.loops + 1 } with loops := m.loops }

/-- The loops that a `break` or a `continue` is about. -/
def loopCount (m : Machine) (words : List String) : Nat := min (countOf words) m.loops

/-- Whether a loop goes on after its body, with the machine that has left the body. -/
def afterBody (m : Machine) : Bool × Machine :=
  match m.flow with
  | .go => (true, m)
  | .leave n => (false, { m with flow := if n ≤ 1 then .go else .leave (n - 1) })
  | .again n =>
    if n ≤ 1 then (true, { m with flow := .go })
    else (false, { m with flow := .again (n - 1) })
  | _ => (false, m)

/-- A machine for another script, with arguments of its own. -/
def start (m : Machine) (name : String) (arguments : List String) : Machine :=
  { m.fork with
    name, arguments
    functions := []
    values := m.values.filter fun v => m.exported.contains v.1
    loops := 0
    stopOnFailure := false
    needNames := false
    keepPatterns := false }

/-- The machine after another script has ended. A signal ended only that one, unless
it took the place of this one. -/
def finish (m child : Machine) : Machine :=
  match child.flow with
  | .signalled signal =>
    if m.replaced then m.join child
    else
      let joined := m.join { child with status := 128 + signal, flow := .exit }
      match signalTexts.lookup signal with
      | some text => joined.writeText 2 (text ++ "\n")
      | none => joined
  | _ => m.join child

/-- Carries out a `printf`. -/
def printWith (m : Machine) (format : String) (arguments : List String) : Machine :=
  let p := printFormatted format arguments
  let m := p.faults.foldl (fun m f => m.complain ("printf: " ++ f)) m
  (m.setStatus p.status).write 1 (.ofBytes p.out)

/-- Reports that a command cannot be run. -/
def refuse (m : Machine) (name why : String) (status : Nat) : Machine :=
  (m.complain ((if m.replaced then "exec: " else "") ++ name ++ ": " ++ why)).setStatus status

/-- The name under which a program is found, where its directory is a usual one. -/
def programName (name : String) : String :=
  if name.toList.contains '/' then
    let directory := "/".intercalate (Path.names name).dropLast
    let isUsual := directory = "bin" ∨ directory = "usr/bin"
    if isUsual ∧ Path.isAbsolute name ∧ !Path.namesDirectory name then
      (Path.names name).getLast?.getD name
    else name
  else name

end Machine

/-- The interpreter that the first line of a program file names, with its argument. -/
def interpreter? (content : String) : Option (List String) :=
  match content.toList with
  | '#' :: '!' :: r =>
    some ((Text.words (r.takeWhile (· ≠ '\n'))).map String.ofList)
  | _ => none

/-- The names of the shell. -/
def isShell (name : String) : Bool := ["sh", "dash", "bash", "ash"].contains name

mutual

/-- Runs a command. In a `tested` one a failure does not end the script. -/
def run : Nat → Bool → Command → Machine → Machine
  | 0, _, _, m => m.exhausted
  | bound + 1, tested, command, m =>
    if !m.runs then m
    else match command with
      | .simple line assignments words redirects =>
        (runSimple bound { m with line } assignments words redirects).checkFailure tested
      | .sequence commands => runAll bound tested commands m
      | .both first second =>
        let m := run bound true first m
        if m.runs && m.status == 0 then run bound tested second m else m
      | .either first second =>
        let m := run bound true first m
        if m.runs && m.status != 0 then run bound tested second m else m
      | .pipeline negated stages =>
        let m := runStages bound m.stdin m.clock stages m
        if negated then
          if m.runs then m.setStatus (if m.status == 0 then 1 else 0) else m
        else m.checkFailure tested
      | .background body =>
        let child := run bound false body { m.fork with stdin := {} }
        let sinks := m.targets.filterMap fun t => match t.2 with
          | .sink n => some n
          | _ => none
        let ends := match child.flow with
          | .stuck _ => none
          | _ => some child.clock
        let job : Job := { pid := mainPid + m.jobs.length + 1, ends, status := child.status, sinks }
        let joined := m.join child
        { joined with jobs := joined.jobs ++ [job], clock := m.clock, status := 0, flow := .go }
      | .redirected body redirects =>
        match redirectAll bound redirects m with
        | (true, inner) =>
          let after := run bound tested body inner
          { after with targets := m.targets, stdin := m.stdin }
        | (false, m) => m.checkFailure tested
      | .subshell body =>
        let child := run bound tested body m.fork
        ({ m.join child with stdin := child.stdin }).checkFailure tested
      | .branch condition thenBody elseBody =>
        let m := run bound true condition m
        if !m.runs then m
        else if m.status == 0 then run bound tested thenBody m
        else run bound tested elseBody (m.setStatus 0)
      | .loop untilTrue condition body =>
        m.inLoop (runLoop bound tested untilTrue condition body 0)
      | .each name words body =>
        match words with
        | none => (m.setStatus 0).inLoop (runEach bound tested name m.arguments body)
        | some words =>
          let (fields, m) := expandWords bound words m
          (m.setStatus 0).inLoop (runEach bound tested name fields body)
      | .select subject clauses =>
        let (marks, m) := expandMarks bound subject m
        runClauses bound tested (marks.map (·.1)) clauses m
      | .define name body =>
        { m with functions := (name, body) :: m.functions, status := 0 }

/-- Runs commands one after another. -/
def runAll : Nat → Bool → List Command → Machine → Machine
  | 0, _, _, m => m.exhausted
  | _, _, [], m => m
  | bound + 1, tested, command :: commands, m =>
    runAll bound tested commands (run bound tested command m)

/-- Runs a loop. `last` is the status of its body so far. -/
def runLoop : Nat → Bool → Bool → Command → Command → Nat → Machine → Machine
  | 0, _, _, _, _, _, m => m.exhausted
  | bound + 1, tested, untilTrue, condition, body, last, m =>
    let m := run bound true condition m
    if !m.runs then m.afterBody.2
    else if (m.status == 0) == untilTrue then m.setStatus last
    else match (run bound tested body m).afterBody with
      | (true, m) => runLoop bound tested untilTrue condition body m.status m
      | (false, m) => m

/-- Runs the body of a `for` for each word. -/
def runEach : Nat → Bool → String → List String → Command → Machine → Machine
  | 0, _, _, _, _, m => m.exhausted
  | _, _, _, [], _, m => m
  | bound + 1, tested, name, word :: words, body, m =>
    match (run bound tested body (m.assign name word)).afterBody with
    | (true, m) => runEach bound tested name words body m
    | (false, m) => m

/-- Runs the first clause of a `case` with a pattern that matches. -/
def runClauses : Nat → Bool → List Char → List (List Word × Command) → Machine → Machine
  | 0, _, _, _, m => m.exhausted
  | _, _, _, [], m => m.setStatus 0
  | bound + 1, tested, subject, (patterns, body) :: clauses, m =>
    match matchAny bound subject patterns m with
    | (true, m) => run bound tested body (m.setStatus 0)
    | (false, m) => runClauses bound tested subject clauses m

/-- Whether a text matches one of some patterns. -/
def matchAny : Nat → List Char → List Word → Machine → Bool × Machine
  | 0, _, _, m => (false, m.exhausted)
  | _, _, [], m => (false, m)
  | bound + 1, subject, pattern :: patterns, m =>
    let (marks, m) := expandMarks bound pattern m
    if matchPattern marks subject then (true, m) else matchAny bound subject patterns m

/-- Runs the stages of a pipeline that began at a given time. Each reads what the one
before it has written; the last one's status counts, and all must end. A stage that
writes for ever ends with its reader. -/
def runStages : Nat → ByteStream → Nat → List Command → Machine → Machine
  | 0, _, _, _, m => m.exhausted
  | _, _, _, [], m => m
  | bound + 1, stdin, began, [stage], m =>
    let child := run bound false stage { m.fork with stdin, clock := began }
    let joined := m.join child
    { joined with clock := max m.clock child.clock }
  | bound + 1, stdin, began, stage :: stages, m =>
    let (n, m) := m.newSink
    let child := run bound false stage
      { m.fork with
        stdin, clock := began
        targets := (1, .sink n) :: m.targets.filter (·.1 != 1) }
    let joined := m.join child
    let joined := { joined with clock := max m.clock child.clock }
    match child.flow with
    | .stuck false =>
      let after :=
        runStages bound (joined.sinkContent n) began stages { joined with flow := m.flow }
      { after with flow := .stuck false }
    | .signalled _ => joined
    | _ =>
      runStages bound (joined.sinkContent n) began stages { joined with flow := m.flow }

/-- Carries out redirections from the left, up to one that fails. -/
def redirectAll : Nat → List Redirect → Machine → Bool × Machine
  | 0, _, m => (false, m.exhausted)
  | _, [], m => (true, m)
  | bound + 1, r :: rs, m =>
    let (marks, m) := expandMarks bound r.word m
    match m.redirect r (markText marks) with
    | (true, m) => redirectAll bound rs m
    | (false, m) => (false, m)

/-- Runs a simple command. -/
def runSimple :
    Nat → Machine → List (String × Word) → List Word → List Redirect → Machine
  | 0, m, _, _, _ => m.exhausted
  | bound + 1, m, assignments, words, redirects =>
    let (fields, m) := expandWords bound words m
    if !m.runs then m
    else match fields with
      | [] =>
        let m := assignAll bound assignments m
        let substituted := words.any (·.any Piece.isCommand) ||
          assignments.any (·.2.any Piece.isCommand)
        let m := if substituted ∨ !m.runs then m else m.setStatus 0
        match redirectAll bound redirects m with
        | (true, after) => { after with targets := m.targets, stdin := m.stdin }
        | (false, m) => m
      | name :: arguments =>
        match redirectAll bound redirects m with
        | (false, after) => { after with targets := m.targets, stdin := m.stdin }
        | (true, inner) =>
          if name = "exec" ∧ arguments.isEmpty then inner.setStatus 0
          else
            let assigned := assignAll bound assignments inner
            let after := runNamed bound name arguments
              { assigned with exported := assignments.map (·.1) ++ m.exported }
            let own := assignments.isEmpty
            { after with
              values := if own then after.values else m.values
              exported := if own then after.exported else m.exported
              targets := m.targets
              stdin := if redirects.any (·.descriptor == 0) then m.stdin else after.stdin }

/-- Sets variables from the left. -/
def assignAll : Nat → List (String × Word) → Machine → Machine
  | 0, _, m => m.exhausted
  | _, [], m => m
  | bound + 1, (name, word) :: rest, m =>
    let (marks, m) := expandMarks bound word m
    assignAll bound rest (m.assign name (markText marks))

/-- Runs what a name stands for: a built-in command, a function, or a program. -/
def runNamed : Nat → String → List String → Machine → Machine
  | 0, _, _, m => m.exhausted
  | bound + 1, name, arguments, m =>
    match name with
    | ":" | "true" | "umask" | "ulimit" | "hash" | "alias" | "jobs" => m.setStatus 0
    | "false" => m.setStatus 1
    | "exit" => m.exit arguments
    | "return" =>
      { m with
        flow := .return
        status := if arguments.isEmpty then m.status else Machine.countOf arguments % 256 }
    | "break" =>
      let n := m.loopCount arguments
      { m with flow := if n = 0 then .go else .leave n, status := 0 }
    | "continue" =>
      let n := m.loopCount arguments
      { m with flow := if n = 0 then .go else .again n, status := 0 }
    | "shift" => m.shift arguments
    | "set" => m.set arguments
    | "unset" =>
      arguments.foldl (fun m name =>
        { m.unassign name with functions := m.functions.filter (·.1 != name) }) (m.setStatus 0)
    | "export" => m.exports arguments
    | "readonly" | "local" => m.declare arguments
    | "cd" => m.changeDirectory arguments
    | "pwd" => m.workingDirectory
    | "read" => m.readFields arguments
    | "test" => m.test arguments
    | "[" =>
      if arguments.getLast? = some "]" then m.test arguments.dropLast
      else (m.complain "[: missing ]").setStatus 2
    | "echo" => (m.setStatus 0).write 1 (.ofBytes (echo arguments))
    | "printf" =>
      match arguments with
      | [] => (m.complain "printf: usage: printf format [arg ...]").setStatus 2
      | format :: rest =>
        match format.toList, rest with
        | ['-', '-'], format :: rest => m.printWith format rest
        | '-' :: c :: _, _ =>
          (m.complain ("printf: Illegal option -" ++ String.singleton c)).setStatus 2
        | _, rest => m.printWith format rest
    | "trap" => m.trap arguments
    | "wait" => m.wait arguments
    | "kill" =>
      match Machine.killRequest arguments with
      | .bad why => (m.complain ("kill: " ++ why)).setStatus 2
      | .name signal =>
        let number := readDigits (signal.toList.filter Char.isDigit) % 128
        (m.writeText 1 ((signalNames.lookup number).getD signal ++ "\n")).setStatus 0
      | .send signal pids => killAll bound signal pids (m.setStatus 0)
    | "eval" => runText bound (" ".intercalate arguments).toList m
    | "." =>
      match arguments with
      | path :: _ =>
        if !path.toList.contains '/' then m.abort (".: " ++ path ++ ": not found")
        else match m.files.read path with
          | .ok content =>
            let m := runText bound content.toList m
            if m.flow = .return then { m with flow := .go } else m
          | .error _ => m.abort (".: cannot open " ++ path ++ ": No such file")
      | [] => m.setStatus 0
    | "exec" =>
      match arguments with
      | name :: arguments =>
        let m := runNamed bound name arguments { m with replaced := true }
        if m.runs then { m with flow := .exit, traps := [] } else m
      | [] => m.setStatus 0
    | "command" | "nohup" | "env" =>
      let assigned := arguments.takeWhile fun a => a.toList.contains '=' || a = "--"
      match arguments.drop assigned.length with
      | name :: arguments =>
        if name = "-v" then
          match arguments with
          | [] => m.setStatus 127
          | name :: _ => (m.writeText 1 (name ++ "\n")).setStatus 0
        else runNamed bound name arguments (m.exports assigned)
      | [] => m.setStatus 0
    | "timeout" =>
      match arguments with
      | limit :: name :: arguments =>
        let after := runNamed bound name arguments m
        match readMillis? limit with
        | some millis =>
          let late : Bool := match after.flow with
            | .stuck _ => true
            | _ => m.clock + millis < after.clock
          if late ∧ 0 < millis then
            { after with clock := m.clock + millis, status := 124, flow := .go }
          else after
        | none => m.setStatus 125
      | _ => m.setStatus 125
    | name =>
      match m.functions.lookup name with
      | some body =>
        let after := run bound false body { m with arguments, loops := 0 }
        { after with
          arguments := m.arguments
          loops := m.loops
          flow := if after.flow = .return then .go else after.flow }
      | none => runProgram bound name arguments m

/-- Sends a signal to processes. -/
def killAll : Nat → Nat → List String → Machine → Machine
  | 0, _, _, m => m.exhausted
  | _, _, [], m => m
  | bound + 1, signal, pid :: pids, m =>
    let number := readDigits (pid.toList.filter Char.isDigit)
    if pid = "0" ∨ number = mainPid then
      match m.traps.lookup (toString signal), signalEffect signal with
      | some action, _ =>
        if signal = 9 then { m with flow := .signalled 9 }
        else killAll bound signal pids (runText bound action.toList m)
      | none, .none => killAll bound signal pids m
      | none, .halt => { m with flow := .stuck false }
      | none, .death => { m with flow := .signalled signal }
    else if m.jobs.any (·.pid == number) then
      killAll bound signal pids (if signal = 0 then m else m.endJob number signal)
    else killAll bound signal pids ((m.complain "kill: No such process\n").setStatus 1)

/-- Runs a program file, or one of the usual programs. -/
def runProgram : Nat → String → List String → Machine → Machine
  | 0, _, _, m => m.exhausted
  | bound + 1, name, arguments, m =>
    let known := Machine.programName name
    if isShell known then runShell bound name arguments m
    else match m.fileCommand? known arguments with
      | some after => after
      | none =>
        match utility? m.readFile known arguments m.stdin with
        | some r => m.reply known arguments r
        | none =>
          if name.toList.contains '/' then
            match m.files.find name with
            | .ok (_, .file content true) =>
              m.finish (runFile bound name content arguments m)
            | .ok _ => m.refuse name "Permission denied" 126
            | .error _ => m.refuse name "not found" 127
          else m.refuse name (if name = "" then "Permission denied" else "not found") 127

/-- Runs a program file by the interpreter that its first line names. -/
def runFile : Nat → String → String → List String → Machine → Machine
  | 0, _, _, _, m => m.exhausted
  | bound + 1, name, content, arguments, m =>
    match interpreter? content with
    | none => runScript bound content.toList (m.start name arguments)
    | some words =>
      let words := if words.head? = some "/usr/bin/env" then words.drop 1 else words
      match words with
      | [] => m.setStatus 126
      | program :: options =>
        let known := Machine.programName program
        if isShell known then
          let m := m.start name arguments
          runScript bound content.toList (if options.isEmpty then m else m.set options)
        else runNamed bound known (options ++ name :: arguments) m.fork

/-- Runs a shell as a program: on the text after `-c`, or on a file. -/
def runShell : Nat → String → List String → Machine → Machine
  | 0, _, _, m => m.exhausted
  | bound + 1, shell, arguments, m =>
    let isOption (w : String) : Bool := w.toList.head? == some '-'
    let letters := (arguments.takeWhile isOption).flatMap (·.toList.drop 1)
    let begin (name : String) (arguments : List String) : Machine :=
      letters.foldl (Machine.setOption · true) (m.start name arguments)
    match arguments.dropWhile isOption with
    | word :: rest =>
      if letters.contains 'c' then
        m.finish (runScript bound word.toList (begin (rest.head?.getD shell) (rest.drop 1)))
      else match m.files.read word with
        | .ok content => m.finish (runScript bound content.toList (begin word rest))
        | .error _ =>
          (m.writeText 2 (shell ++ ": 0: cannot open " ++ word ++ ": No such file\n")).setStatus 2
    | [] =>
      if letters.contains 'c' then
        (m.writeText 2 (shell ++ ": 0: -c requires an argument\n")).setStatus 2
      else m.finish (runScript bound (Text.decodeUtf8 m.stdin.bytes).toList (begin shell []))

/-- Runs a text as part of the script that is running. -/
def runText : Nat → List Char → Machine → Machine
  | 0, _, m => m.exhausted
  | bound + 1, text, m =>
    let script := Script.ofText text
    let m := runAll bound false script.commands m
    match script.fault with
    | some (line, fault) =>
      if m.runs then { m with line }.abort fault.message else m
    | none => m

/-- Runs a text as a script of its own, with what it asks to be run at its end. -/
def runScript : Nat → List Char → Machine → Machine
  | 0, _, m => m.exhausted
  | bound + 1, text, m =>
    let m := runText bound text m
    match m.traps.lookup "0", m.flow with
    | some action, .go | some action, .exit =>
      let after := runText bound action.toList { m with flow := .go, traps := [] }
      { after with status := if after.flow = .exit then after.status else m.status }
    | _, _ => m

/-- The words that some words expand to. -/
def expandWords : Nat → List Word → Machine → List String × Machine
  | 0, _, m => ([], m.exhausted)
  | _, [], m => ([], m)
  | bound + 1, word :: words, m =>
    let (glyphs, m) := expandPieces bound true word m
    let fields := (fieldsFrom none glyphs).flatMap fun field =>
      if m.keepPatterns then [markText field] else globField m.files field
    let (rest, m) := expandWords bound words m
    (fields ++ rest, m)

/-- The characters that a word expands to where it is not split. -/
def expandMarks : Nat → Word → Machine → List Mark × Machine
  | 0, _, m => ([], m.exhausted)
  | bound + 1, word, m =>
    let (glyphs, m) := expandPieces bound false word m
    (glyphMarks glyphs, m)

/-- Expands the pieces of a word from the left. -/
def expandPieces : Nat → Bool → Word → Machine → List Glyph × Machine
  | 0, _, _, m => ([], m.exhausted)
  | _, _, [], m => ([], m)
  | bound + 1, splits, piece :: pieces, m =>
    let (glyphs, m) := expandPiece bound splits piece m
    let (rest, m) := expandPieces bound splits pieces m
    (glyphs ++ rest, m)

def expandPiece : Nat → Bool → Piece → Machine → List Glyph × Machine
  | 0, _, _, m => ([], m.exhausted)
  | bound + 1, splits, piece, m =>
    match piece with
    | .text true cs => (quotedGlyphs cs, m)
    | .text false cs => (plainGlyphs cs, m)
    | .arithmetic quoted source =>
      let (marks, m) := expandSource bound source m
      let value (name : String) : Int :=
        ((m.lookup name).bind fun s => readInt? s.toList).getD 0
      match evalExpression value (marks.map (·.1)) with
      | .ok (name, n) =>
        let text := String.ofList (writeInt n)
        (m.valueGlyphs quoted splits text, (name.map (m.assign · text)).getD m)
      | .error fault =>
        ([], m.abort ("arithmetic expression: " ++ fault.message ++ ": \"" ++ markText marks ++
          "\""))
    | .command quoted source =>
      let (n, inner) := m.newSink
      let child := runScript bound source
        { inner.fork with targets := (1, .sink n) :: m.targets.filter (·.1 != 1) }
      let joined := inner.join child
      let text := Text.dropEndWhile (· == '\n')
        (Text.decodeUtf8 (joined.sinkContent n).bytes).toList
      (m.valueGlyphs quoted splits (String.ofList text), joined)
    | .parameter quoted source => expandParameter bound splits quoted (readParameter source) m

/-- Expands a text as if it were quoted. -/
def expandSource : Nat → List Char → Machine → List Mark × Machine
  | 0, _, m => ([], m.exhausted)
  | bound + 1, source, m =>
    match scanQuoted true (source.length + 1) source with
    | .ok (pieces, _) => expandMarks bound pieces m
    | .error _ => ([], m.abort "Bad substitution")

/-- Expands a parameter and does to it what is asked. -/
def expandParameter : Nat → Bool → Bool → Parameter → Machine → List Glyph × Machine
  | 0, _, _, _, m => ([], m.exhausted)
  | bound + 1, splits, quoted, p, m =>
    let value := m.parameter? p.name
    let text := value.getD ""
    let operand (m : Machine) : Word × Machine :=
      match scanWord true (p.operand.length + 1) p.operand with
      | .ok (word, _) => (word, m)
      | .error _ => ([], m.abort "Bad substitution")
    let instead (m : Machine) : List Glyph × Machine :=
      let (word, m) := operand m
      let (glyphs, m) := expandPieces bound splits word m
      (if quoted then .present :: glyphs.map Glyph.quote else glyphs, m)
    let isUnset := if p.operator.head? = some ':' then text = "" else value.isNone
    let own (m : Machine) : List Glyph × Machine :=
      if p.name = "@" ∨ p.name = "*" then (m.argumentGlyphs quoted splits p.name, m)
      else (m.valueGlyphs quoted splits text, m)
    if p.measured then
      (m.valueGlyphs quoted splits (toString text.length), m)
    else match p.operator.getLast? with
      | none =>
        if m.needNames ∧ value.isNone ∧ p.name ≠ "@" ∧ p.name ≠ "*" then
          ([], m.abort (p.name ++ ": parameter not set"))
        else own m
      | some '-' => if isUnset then instead m else own m
      | some '+' => if isUnset then ([], m) else instead m
      | some '=' =>
        if isUnset then
          let (glyphs, m) := instead m
          (glyphs, m.assign p.name (markText (glyphMarks glyphs)))
        else own m
      | some '?' =>
        if isUnset then
          let (glyphs, m) := instead m
          let given := markText (glyphMarks glyphs)
          ([], m.abort (p.name ++ ": " ++ if given = "" then "parameter not set" else given))
        else own m
      | some c =>
        let (word, m) := operand m
        let (marks, m) := expandMarks bound word m
        let longest := p.operator.length = 2
        let kept := if c = '#' then cutStart longest marks text.toList
          else cutEnd longest marks text.toList
        (m.valueGlyphs quoted splits (String.ofList kept), m)

end

/-- How deep a script may run. -/
def maxRun : Nat := 20000

end GoCell.Shell
