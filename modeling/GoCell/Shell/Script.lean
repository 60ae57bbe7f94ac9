import GoCell.Shell.Word

/-!
Scripts are read command by command. What stands before a syntax error is kept,
since a shell has run it by then.
-/

namespace GoCell.Shell

/-- The text that is left, and the number of its first line. -/
structure Source where
  rest : List Char
  line : Nat

/-- Passes over spaces, joined lines and a comment. -/
def skipBlanks : List Char → List Char
  | '\\' :: '\n' :: r => skipBlanks r
  | c :: r =>
    if c = ' ' ∨ c = '\t' then skipBlanks r
    else if c = '#' then r.dropWhile (· ≠ '\n')
    else c :: r
  | [] => []

/-- The words that end a list of commands. -/
def closers : List String :=
  ["then", "else", "elif", "fi", "do", "done", "esac", "\x7d"]

/-- The words with a meaning of their own at the start of a command. -/
def reserved : List String :=
  closers ++ ["!", "case", "for", "if", "in", "until", "while", "\x7b"]

/-- The operators between words, the longer first. -/
def operators : List (List Char) :=
  [['&', '&'], ['|', '|'], [';', ';'], ['<', '<'], ['>', '>'], ['&'], ['|'], [';'], ['<'],
    ['>'], ['('], [')']]

namespace Source

/-- The source with other text left, which is an end of its own. -/
def advance (s : Source) (rest : List Char) : Source :=
  { rest, line := s.line + (s.rest.take (s.rest.length - rest.length)).count '\n' }

def skipBlanks (s : Source) : Source := s.advance (Shell.skipBlanks s.rest)

/-- Passes over blanks and line ends. -/
def skipLines : Nat → Source → Source
  | 0, s => s
  | bound + 1, s =>
    match s.skipBlanks with
    | ⟨'\n' :: r, line⟩ => skipLines bound ⟨r, line + 1⟩
    | s => s

def skipAll (s : Source) : Source := skipLines (s.rest.length + 1) s

/-- Reads one word. -/
def word (s : Source) : Except SyntaxFault (Word × Source) := do
  let (pieces, rest) ← scanWord false (s.rest.length + 1) s.rest
  .ok (pieces, s.advance rest)

/-- The next word, where it has neither quotes nor substitutions. -/
def peek? (s : Source) : Option String :=
  match s.skipBlanks.word with
  | .ok (pieces, _) => plainText? pieces
  | .error _ => none

/-- The fault of what comes next, where something else was `expected`. -/
def faultFor (expected : Option String) (s : Source) : SyntaxFault :=
  match s.skipBlanks with
  | ⟨[], line⟩ => .unexpected line "end of file" expected
  | ⟨'\n' :: _, line⟩ => .unexpected (line + 1) "newline" expected
  | ⟨rest, line⟩ =>
    let token := match operators.find? (·.isPrefixOf rest), s.peek? with
      | some op, _ => "\"" ++ String.ofList op ++ "\""
      | none, some w => if reserved.contains w then "\"" ++ w ++ "\"" else "word"
      | none, none => "word"
    .unexpected line token expected

/-- The fault of what comes next. -/
def fault (s : Source) : SyntaxFault := s.faultFor none

/-- Passes over a reserved word. -/
def expect (s : Source) (word : String) : Except SyntaxFault Source :=
  let s := s.skipAll
  if s.peek? = some word then (s.word).map (·.2) else .error (s.faultFor (some word))

/-- Passes over a character. -/
def expectChar (s : Source) (c : Char) : Except SyntaxFault Source :=
  match s.skipBlanks with
  | ⟨d :: r, line⟩ =>
    if c = d then .ok ⟨r, line⟩ else .error (s.faultFor (some (String.singleton c)))
  | _ => .error (s.faultFor (some (String.singleton c)))

end Source

/-- Whether a list of commands ends here. -/
def Source.atCloser (s : Source) : Bool :=
  match s.skipBlanks.rest with
  | [] => true
  | ')' :: _ => true
  | ';' :: ';' :: _ => true
  | _ => (s.peek?.map closers.contains).getD false

/-- Cuts the lines of a here-document off a text, up to the line that is `mark`. -/
def hereLines (mark : List Char) (dropTabs : Bool) :
    List (List Char) → List (List Char) × List (List Char)
  | [] | [[]] => ([], [])
  | line :: lines =>
    let content := if dropTabs then line.dropWhile (· = '\t') else line
    if content = mark then ([], lines)
    else
      let (body, rest) := hereLines mark dropTabs lines
      (content :: body, rest)

/-- A here-document begins on the line after the one that asks for it; it is taken
out of the text there. -/
def readHere (dropTabs : Bool) (s : Source) : Except SyntaxFault (Word × Source) := do
  let (mark, s) ← s.skipBlanks.word
  let current := s.rest.takeWhile (· ≠ '\n')
  let after := (s.rest.dropWhile (· ≠ '\n')).drop 1
  let (body, rest) := hereLines (bareText mark).toList dropTabs (after.splitOn '\n')
  let text := body.flatMap (· ++ ['\n'])
  let left := { s with rest := current ++ '\n' :: ['\n'].intercalate rest }
  if mark.any Piece.isQuoted then .ok ([.text true text], left)
  else
    let (pieces, _) ← scanQuoted true (text.length + 1) text
    .ok (if pieces.isEmpty then [.text true []] else pieces, left)

/-- Reads a redirection, if one comes next. -/
def readRedirect? (s : Source) : Except SyntaxFault (Option (Redirect × Source)) := do
  let digits := s.rest.takeWhile Char.isDigit
  let descriptor (default : Nat) : Nat :=
    if digits.isEmpty then default else Nat.ofDigitChars 10 digits 0
  let take (kind : RedirectKind) (default : Nat) (r : List Char) :
      Except SyntaxFault (Option (Redirect × Source)) := do
    let s := (s.advance r).skipBlanks
    let (word, s) ← s.word
    if word.isEmpty then .error s.fault
    else .ok (some (⟨descriptor default, kind, word⟩, s))
  let here (dropTabs : Bool) (r : List Char) :
      Except SyntaxFault (Option (Redirect × Source)) := do
    let (word, s) ← readHere dropTabs (s.advance r)
    .ok (some (⟨descriptor 0, .content, word⟩, s))
  match s.rest.dropWhile Char.isDigit with
  | '>' :: '>' :: r => take .append 1 r
  | '>' :: '&' :: r => take .duplicate 1 r
  | '>' :: '|' :: r => take .write 1 r
  | '>' :: r => take .write 1 r
  | '<' :: '<' :: '-' :: r => here true r
  | '<' :: '<' :: r => here false r
  | '<' :: '&' :: r => take .duplicate 0 r
  | '<' :: '>' :: r => take .read 0 r
  | '<' :: r => take .read 0 r
  | _ => .ok none

/-- Reads the redirections that follow a compound command. -/
def readRedirects : Nat → Source → Except SyntaxFault (List Redirect × Source)
  | 0, s => .ok ([], s)
  | bound + 1, s => do
    match ← readRedirect? s.skipBlanks with
    | some (redirect, s) =>
      let (redirects, s) ← readRedirects bound s
      .ok (redirect :: redirects, s)
    | none => .ok ([], s)

/-- The name and the value of a word that is an assignment. -/
def assignment? : Word → Option (String × Word)
  | .text false cs :: pieces =>
    let name := cs.takeWhile isNameChar
    match name, cs.dropWhile isNameChar with
    | c :: _, '=' :: value =>
      if isNameStart c then
        some (String.ofList name, if value.isEmpty then pieces else .text false value :: pieces)
      else none
    | _, _ => none
  | _ => none

/-- The parts of a simple command. -/
structure Parts where
  assignments : List (String × Word) := []
  words : List Word := []
  redirects : List Redirect := []

/-- Reads the parts of a simple command, added to those already read. -/
def readParts : Nat → Parts → Source → Except SyntaxFault (Parts × Source)
  | 0, parts, s => .ok (parts, s)
  | bound + 1, parts, s => do
    let s := s.skipBlanks
    match ← readRedirect? s with
    | some (redirect, s) =>
      readParts bound { parts with redirects := parts.redirects ++ [redirect] } s
    | none =>
      let (word, s') ← s.word
      if word.isEmpty then .ok (parts, s)
      else match assignment? word, parts.words with
        | some a, [] => readParts bound { parts with assignments := parts.assignments ++ [a] } s'
        | _, _ => readParts bound { parts with words := parts.words ++ [word] } s'

/-- Reads the words of a `for`, up to the end of the line or a semicolon. -/
def readWords : Nat → Source → Except SyntaxFault (List Word × Source)
  | 0, s => .ok ([], s)
  | bound + 1, s => do
    let s := s.skipBlanks
    let (word, s) ← s.word
    if word.isEmpty then .ok ([], s)
    else
      let (words, s) ← readWords bound s
      .ok (word :: words, s)

/-- Reads the patterns of a clause of a `case`, up to the closing parenthesis. -/
def readPatterns : Nat → Source → Except SyntaxFault (List Word × Source)
  | 0, s => .error s.fault
  | bound + 1, s => do
    let (word, s) ← s.skipBlanks.word
    if word.isEmpty then .error (s.faultFor (some ")"))
    else match s.skipBlanks with
      | ⟨'|' :: r, line⟩ =>
        let (words, s) ← readPatterns bound ⟨r, line⟩
        .ok (word :: words, s)
      | ⟨')' :: r, line⟩ => .ok ([word], ⟨r, line⟩)
      | s => .error (s.faultFor (some ")"))

/-- Passes over the semicolon or the line end after the words of a `for`. -/
def skipSeparator (s : Source) : Source :=
  match s.skipBlanks with
  | ⟨';' :: r, line⟩ => Source.skipAll ⟨r, line⟩
  | s => s.skipAll

mutual

/-- Reads commands up to a word that closes the list. -/
def readList : Nat → Source → Except SyntaxFault (List Command × Source)
  | 0, s => .error s.fault
  | bound + 1, s => do
    let s := s.skipAll
    if s.atCloser then .ok ([], s)
    else
      let (command, s) ← readItem bound s
      let (commands, s) ← readList bound s
      .ok (command :: commands, s)

/-- Reads one entry of a list and what separates it from the next. -/
def readItem : Nat → Source → Except SyntaxFault (Command × Source)
  | 0, s => .error s.fault
  | bound + 1, s => do
    let (command, s) ← readJoined bound s
    match s.skipBlanks with
    | ⟨'&' :: r, line⟩ => .ok (.background command, ⟨r, line⟩)
    | ⟨';' :: ';' :: r, line⟩ => .ok (command, ⟨';' :: ';' :: r, line⟩)
    | ⟨';' :: r, line⟩ => .ok (command, ⟨r, line⟩)
    | ⟨'\n' :: r, line⟩ => .ok (command, ⟨r, line + 1⟩)
    | s => if s.atCloser then .ok (command, s) else .error s.fault

/-- Reads pipelines joined by `&&` and `||`. -/
def readJoined : Nat → Source → Except SyntaxFault (Command × Source)
  | 0, s => .error s.fault
  | bound + 1, s => do
    let (first, s) ← readPipeline bound s
    readJoinedFrom bound first s

/-- Reads what is joined to a command. -/
def readJoinedFrom : Nat → Command → Source → Except SyntaxFault (Command × Source)
  | 0, _, s => .error s.fault
  | bound + 1, first, s => do
    match s.skipBlanks with
    | ⟨'&' :: '&' :: r, line⟩ =>
      let (second, s) ← readPipeline bound (Source.skipAll ⟨r, line⟩)
      readJoinedFrom bound (.both first second) s
    | ⟨'|' :: '|' :: r, line⟩ =>
      let (second, s) ← readPipeline bound (Source.skipAll ⟨r, line⟩)
      readJoinedFrom bound (.either first second) s
    | s => .ok (first, s)

def readPipeline : Nat → Source → Except SyntaxFault (Command × Source)
  | 0, s => .error s.fault
  | bound + 1, s => do
    if s.peek? = some "!" then
      let (stages, s) ← readStages bound (← s.skipBlanks.word).2
      .ok (.pipeline true stages, s)
    else
      let (stages, s) ← readStages bound s
      match stages with
      | [command] => .ok (command, s)
      | stages => .ok (.pipeline false stages, s)

/-- Reads the commands of a pipeline. -/
def readStages : Nat → Source → Except SyntaxFault (List Command × Source)
  | 0, s => .error s.fault
  | bound + 1, s => do
    let (command, s) ← readCommand bound s
    match s.skipBlanks with
    | ⟨'|' :: '|' :: r, line⟩ => .ok ([command], ⟨'|' :: '|' :: r, line⟩)
    | ⟨'|' :: r, line⟩ =>
      let (commands, s) ← readStages bound (Source.skipAll ⟨r, line⟩)
      .ok (command :: commands, s)
    | s => .ok ([command], s)

/-- Reads a command with its redirections. -/
def readCommand : Nat → Source → Except SyntaxFault (Command × Source)
  | 0, s => .error s.fault
  | bound + 1, s => do
    let s := s.skipBlanks
    match ← readCompound? bound s with
    | some (command, s) =>
      let (redirects, s) ← readRedirects (s.rest.length + 1) s
      if redirects.isEmpty then .ok (command, s) else .ok (.redirected command redirects, s)
    | none =>
      let (parts, s') ← readParts (s.rest.length + 1) {} s
      match parts, s'.skipBlanks with
      | ⟨[], [name], []⟩, ⟨'(' :: r, line⟩ =>
        let s ← Source.expectChar ⟨r, line⟩ ')'
        let (body, s) ← readCommand bound s.skipAll
        .ok (.define (bareText name) body, s)
      | ⟨[], [], []⟩, s => .error s.fault
      | _, _ => .ok (.simple s.line parts.assignments parts.words parts.redirects, s')

/-- Reads a compound command, if one comes next. -/
def readCompound? : Nat → Source → Except SyntaxFault (Option (Command × Source))
  | 0, _ => .ok none
  | bound + 1, s => do
    match s with
    | ⟨'(' :: r, line⟩ =>
      let (commands, s) ← readList bound ⟨r, line⟩
      .ok (some (.subshell (.sequence commands), ← s.skipAll.expectChar ')'))
    | s =>
      match s.peek? with
      | some "\x7b" =>
        let (commands, s) ← readList bound (← s.word).2
        .ok (some (.sequence commands, ← s.expect "\x7d"))
      | some "if" =>
        let (command, s) ← readBranch bound (← s.word).2
        .ok (some (command, s))
      | some "while" =>
        let (command, s) ← readLoop bound false (← s.word).2
        .ok (some (command, s))
      | some "until" =>
        let (command, s) ← readLoop bound true (← s.word).2
        .ok (some (command, s))
      | some "for" =>
        let (name, s) ← ((← s.word).2.skipBlanks).word
        let s := s.skipAll
        let (words, s) ← if s.peek? = some "in" then do
            let (words, s) ← readWords (s.rest.length + 1) (← s.word).2
            Except.ok (some words, s)
          else Except.ok (none, s)
        let s ← (skipSeparator s).expect "do"
        let (body, s) ← readList bound s
        .ok (some (.each (bareText name) words (.sequence body), ← s.expect "done"))
      | some "case" =>
        let (subject, s) ← ((← s.word).2.skipBlanks).word
        let (clauses, s) ← readClauses bound (← s.expect "in")
        .ok (some (.select subject clauses, ← s.expect "esac"))
      | some word => if closers.contains word then .error s.fault else .ok none
      | none => .ok none

/-- Reads an `if` after its first word. -/
def readBranch : Nat → Source → Except SyntaxFault (Command × Source)
  | 0, s => .error s.fault
  | bound + 1, s => do
    let (condition, s) ← readList bound s
    let (thenBody, s) ← readList bound (← s.expect "then")
    let s := s.skipAll
    match s.peek? with
    | some "elif" =>
      let (elseBody, s) ← readBranch bound (← s.word).2
      .ok (.branch (.sequence condition) (.sequence thenBody) elseBody, s)
    | some "else" =>
      let (elseBody, s) ← readList bound (← s.word).2
      .ok (.branch (.sequence condition) (.sequence thenBody) (.sequence elseBody),
        ← s.expect "fi")
    | _ =>
      .ok (.branch (.sequence condition) (.sequence thenBody) .skip, ← s.expect "fi")

/-- Reads a loop after its first word. -/
def readLoop : Nat → Bool → Source → Except SyntaxFault (Command × Source)
  | 0, _, s => .error s.fault
  | bound + 1, untilTrue, s => do
    let (condition, s) ← readList bound s
    let (body, s) ← readList bound (← s.expect "do")
    .ok (.loop untilTrue (.sequence condition) (.sequence body), ← s.expect "done")

/-- Reads the clauses of a `case`. -/
def readClauses : Nat → Source → Except SyntaxFault (List (List Word × Command) × Source)
  | 0, s => .error s.fault
  | bound + 1, s => do
    let s := s.skipAll
    if s.peek? = some "esac" then .ok ([], s)
    else
      let s : Source := match s with
        | ⟨'(' :: r, line⟩ => ⟨r, line⟩
        | s => s
      let (patterns, s) ← readPatterns (s.rest.length + 1) s
      let (body, s) ← readList bound s
      match s.skipAll with
      | ⟨';' :: ';' :: r, line⟩ =>
        let (clauses, s) ← readClauses bound ⟨r, line⟩
        .ok ((patterns, .sequence body) :: clauses, s)
      | s =>
        if s.peek? = some "esac" then .ok ([(patterns, .sequence body)], s)
        else .error (s.faultFor (some ";;"))

end

/-- A script: the commands before the first syntax error, and that error with the
line it is on. -/
structure Script where
  commands : List Command
  fault : Option (Nat × SyntaxFault)

/-- Reads the commands of a script. -/
def readCommands : Nat → Source → Script
  | 0, _ => ⟨[], none⟩
  | bound + 1, s =>
    let s := s.skipAll
    if s.rest.isEmpty then ⟨[], none⟩
    else match readItem (4 * s.rest.length + 16) s with
      | .error fault => ⟨[], some (fault.line s.line (s.advance []).line, fault)⟩
      | .ok (command, next) =>
        let script := readCommands bound next
        { script with commands := command :: script.commands }

/-- Reads a script. -/
def Script.ofText (text : List Char) : Script :=
  readCommands (text.length + 1) ⟨text, 1⟩

end GoCell.Shell
