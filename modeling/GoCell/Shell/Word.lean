import GoCell.Shell.Syntax

/-!
Reading the words of a script, with their quoting and substitutions.
-/

namespace GoCell.Shell

/-- Why a script cannot be read: something is not closed, or something else than
what is `expected` is found on a line. -/
inductive SyntaxFault
  | openQuote
  | openBackquote
  | openParenthesis
  | openBrace
  | unexpected (line : Nat) (token : String) (expected : Option String)

namespace SyntaxFault

def text : SyntaxFault → String
  | .openQuote => "Unterminated quoted string"
  | .openBackquote => "EOF in backquote substitution"
  | .openParenthesis => "end of file unexpected (expecting \")\")"
  | .openBrace => "Missing '\x7d'"
  | .unexpected _ token none => token ++ " unexpected"
  | .unexpected _ token (some expected) =>
    token ++ " unexpected (expecting \"" ++ expected ++ "\")"

def message (f : SyntaxFault) : String := "Syntax error: " ++ f.text

/-- The line of a fault in a text with a first and a last line. What is not closed
is missed at the end. -/
def line (first last : Nat) : SyntaxFault → Nat
  | .unexpected n _ _ => n
  | .openBrace => first
  | _ => last

end SyntaxFault

/-- The characters that end a word. -/
def isMeta (c : Char) : Bool :=
  c == ' ' || c == '\t' || c == '\n' || c == ';' || c == '&' || c == '|' || c == '<' ||
    c == '>' || c == '(' || c == ')'

def isNameStart (c : Char) : Bool := c.isAlpha || c == '_'

def isNameChar (c : Char) : Bool := c.isAlphanum || c == '_'

/-- The parameters whose name is one character that is no letter. -/
def isSpecialParameter (c : Char) : Bool :=
  c == '@' || c == '*' || c == '#' || c == '?' || c == '$' || c == '!' || c == '-' || c.isDigit

/-- Where a scan for a closing bracket stands. -/
inductive Quoting
  | plain
  | single
  | double
  | escapedPlain
  | escapedDouble

/-- The text up to the bracket that closes `depth` open ones, and the rest. Brackets
in quotes do not count. `done` is the text so far, last character first. -/
def balanced (opening closing : Char) :
    Nat → Quoting → List Char → List Char → Option (List Char × List Char)
  | _, _, _, [] => none
  | depth, .escapedPlain, done, c :: r => balanced opening closing depth .plain (c :: done) r
  | depth, .escapedDouble, done, c :: r => balanced opening closing depth .double (c :: done) r
  | depth, .single, done, c :: r =>
    balanced opening closing depth (if c = '\'' then .plain else .single) (c :: done) r
  | depth, .double, done, c :: r =>
    let next := if c = '"' then Quoting.plain else if c = '\\' then .escapedDouble else .double
    balanced opening closing depth next (c :: done) r
  | depth, .plain, done, c :: r =>
    if c = closing then
      if depth ≤ 1 then some (done.reverse, r)
      else balanced opening closing (depth - 1) .plain (c :: done) r
    else if c = opening then balanced opening closing (depth + 1) .plain (c :: done) r
    else
      let next := if c = '\'' then Quoting.single else if c = '"' then .double
        else if c = '\\' then .escapedPlain else .plain
      balanced opening closing depth next (c :: done) r

/-- The text up to a closing backquote, and the rest. -/
def untilBackquote : List Char → List Char → Option (List Char × List Char)
  | _, [] => none
  | done, '\\' :: c :: r =>
    if c = '\x60' ∨ c = '\\' ∨ c = '$' then untilBackquote (c :: done) r
    else untilBackquote (c :: '\\' :: done) r
  | done, c :: r => if c = '\x60' then some (done.reverse, r) else untilBackquote (c :: done) r

/-- What stands after a dollar sign. -/
def scanDollar (quoted : Bool) (l : List Char) : Except SyntaxFault (Piece × List Char) :=
  match l with
  | '(' :: '(' :: r =>
    match balanced '(' ')' 2 .plain [] r with
    | some (source, rest) => .ok (.arithmetic quoted source.dropLast, rest)
    | none => .error .openParenthesis
  | '(' :: r =>
    match balanced '(' ')' 1 .plain [] r with
    | some (source, rest) => .ok (.command quoted source, rest)
    | none => .error .openParenthesis
  | '{' :: r =>
    match balanced '{' '}' 1 .plain [] r with
    | some (source, rest) => .ok (.parameter quoted source, rest)
    | none => .error .openBrace
  | c :: r =>
    if isNameStart c then
      .ok (.parameter quoted (l.takeWhile isNameChar), l.dropWhile isNameChar)
    else if isSpecialParameter c then .ok (.parameter quoted [c], r)
    else .ok (.text quoted ['$'], l)
  | [] => .ok (.text quoted ['$'], [])

/-- The pieces between double quotes. With `toEnd` the whole text is meant, and a
double quote is an ordinary character. -/
def scanQuoted (toEnd : Bool) : Nat → List Char → Except SyntaxFault (Word × List Char)
  | 0, _ => .error .openQuote
  | _, [] => if toEnd then .ok ([], []) else .error .openQuote
  | bound + 1, c :: r => do
    if c = '"' ∧ !toEnd then .ok ([], r)
    else if c = '$' then
      let (piece, r) ← scanDollar true r
      let (pieces, r) ← scanQuoted toEnd bound r
      .ok (piece :: pieces, r)
    else if c = '\x60' then
      match untilBackquote [] r with
      | none => .error .openBackquote
      | some (source, r) =>
        let (pieces, r) ← scanQuoted toEnd bound r
        .ok (.command true source :: pieces, r)
    else if c = '\\' then
      match r with
      | e :: r =>
        let (pieces, r) ← scanQuoted toEnd bound r
        if e = '\n' then .ok (pieces, r)
        else if e = '$' ∨ e = '\x60' ∨ e = '"' ∨ e = '\\' then
          .ok (.text true [e] :: pieces, r)
        else .ok (.text true ['\\', e] :: pieces, r)
      | [] => .ok ([.text true ['\\']], [])
    else
      let (pieces, r) ← scanQuoted toEnd bound r
      .ok (.text true [c] :: pieces, r)

/-- The pieces of a word. With `toEnd` the whole text is meant, blanks included. -/
def scanWord (toEnd : Bool) : Nat → List Char → Except SyntaxFault (Word × List Char)
  | 0, l => .ok ([], l)
  | _, [] => .ok ([], [])
  | bound + 1, c :: r => do
    if isMeta c ∧ !toEnd then .ok ([], c :: r)
    else if c = '\\' then
      match r with
      | e :: r =>
        let (pieces, r) ← scanWord toEnd bound r
        if e = '\n' then .ok (pieces, r) else .ok (.text true [e] :: pieces, r)
      | [] => .ok ([.text true ['\\']], [])
    else if c = '\'' then
      match r.dropWhile (· ≠ '\'') with
      | [] => .error .openQuote
      | _ :: rest =>
        let (pieces, rest) ← scanWord toEnd bound rest
        .ok (.text true (r.takeWhile (· ≠ '\'')) :: pieces, rest)
    else if c = '"' then
      let (inner, r) ← scanQuoted false (r.length + 1) r
      let (pieces, r) ← scanWord toEnd bound r
      .ok ((if inner.isEmpty then [.text true []] else inner) ++ pieces, r)
    else if c = '$' then
      let (piece, r) ← scanDollar false r
      let (pieces, r) ← scanWord toEnd bound r
      .ok (piece :: pieces, r)
    else if c = '\x60' then
      match untilBackquote [] r with
      | none => .error .openBackquote
      | some (source, r) =>
        let (pieces, r) ← scanWord toEnd bound r
        .ok (.command false source :: pieces, r)
    else
      let (pieces, r) ← scanWord toEnd bound r
      match pieces with
      | .text false cs :: pieces => .ok (.text false (c :: cs) :: pieces, r)
      | pieces => .ok (.text false [c] :: pieces, r)

/-- The text of a word that has neither quotes nor substitutions. -/
def plainText? : Word → Option String
  | [.text false cs] => some (String.ofList cs)
  | _ => none

/-- The text of a word with its quotes removed, substitutions left out. -/
def bareText (word : Word) : String :=
  String.ofList (word.flatMap fun
    | .text _ cs => cs
    | _ => [])

def Piece.isQuoted : Piece → Bool
  | .text quoted _ | .parameter quoted _ | .command quoted _ | .arithmetic quoted _ => quoted

/-- Whether a piece is the output of commands. -/
def Piece.isCommand : Piece → Bool
  | .command _ _ => true
  | _ => false

end GoCell.Shell
