/-!
Integer expressions of the shell. Binary operators group to the left and bind as
in C.
-/

namespace GoCell.Shell

def skipBlank (l : List Char) : List Char :=
  l.dropWhile fun c => c == ' ' || c == '\t' || c == '\n'

/-- The binary operators, the loosest first. -/
def operatorLevels : List (List (List Char)) :=
  [[['|', '|']], [['&', '&']], [['|']], [['^']], [['&']], [['=', '='], ['!', '=']],
    [['<', '='], ['>', '='], ['<'], ['>']], [['<', '<'], ['>', '>']], [['+'], ['-']],
    [['*'], ['/'], ['%']]]

/-- Why an expression has no value. -/
inductive ArithmeticFault
  | malformed
  | zeroDivisor

def ArithmeticFault.message : ArithmeticFault → String
  | .malformed => "expecting primary"
  | .zeroDivisor => "division by zero"

def ofBool (b : Bool) : Int := if b then 1 else 0

/-- Applies a binary operator; there is no quotient by zero. -/
def applyOperator (op : List Char) (a b : Int) : Except ArithmeticFault Int :=
  match op with
  | ['|', '|'] => .ok (ofBool (a != 0 || b != 0))
  | ['&', '&'] => .ok (ofBool (a != 0 && b != 0))
  | ['|'] => .ok (Int64.ofInt a ||| Int64.ofInt b).toInt
  | ['^'] => .ok (Int64.ofInt a ^^^ Int64.ofInt b).toInt
  | ['&'] => .ok (Int64.ofInt a &&& Int64.ofInt b).toInt
  | ['=', '='] => .ok (ofBool (a == b))
  | ['!', '='] => .ok (ofBool (a != b))
  | ['<', '='] => .ok (ofBool (a ≤ b))
  | ['>', '='] => .ok (ofBool (a ≥ b))
  | ['<'] => .ok (ofBool (a < b))
  | ['>'] => .ok (ofBool (a > b))
  | ['<', '<'] => .ok (Int64.ofInt a <<< Int64.ofInt b).toInt
  | ['>', '>'] => .ok (Int64.ofInt a >>> Int64.ofInt b).toInt
  | ['+'] => .ok (Int64.ofInt (a + b)).toInt
  | ['-'] => .ok (Int64.ofInt (a - b)).toInt
  | ['*'] => .ok (Int64.ofInt (a * b)).toInt
  | ['/'] => if b = 0 then .error .zeroDivisor else .ok (Int.tdiv a b)
  | ['%'] => if b = 0 then .error .zeroDivisor else .ok (Int.tmod a b)
  | _ => .error .malformed

/-- An operator of a level at the front of a text. A doubled `&`, `|`, `<` or `>` is
not the single one. -/
def takeOperator (ops : List (List Char)) (l : List Char) : Option (List Char × List Char) :=
  ops.findSome? fun op =>
    match op.isPrefixOf? l with
    | some r =>
      let canDouble := (op.head?.map ['&', '|', '<', '>'].contains).getD false
      if op.length = 1 ∧ r.head? = op.head? ∧ canDouble then none else some (op, r)
    | none => none

/-- The number that digits denote: hexadecimal after `0x`, octal after `0`. -/
def readNumber (ds : List Char) : Option Int :=
  let digits (base : Nat) (ds : List Char) : Option Int :=
    ds.foldlM (fun acc c =>
      let d := if c.isDigit then c.toNat - 48 else if 'a' ≤ c ∧ c ≤ 'f' then c.toNat - 87
        else if 'A' ≤ c ∧ c ≤ 'F' then c.toNat - 55 else 99
      if d < base then some (acc * base + d) else none) 0
  match ds with
  | '0' :: x :: r => if x = 'x' ∨ x = 'X' then digits 16 r else digits 8 (x :: r)
  | ds => digits 10 ds

mutual

/-- Reads and evaluates operators of some levels. -/
def evalLevels (lookup : String → Int) :
    Nat → List (List (List Char)) → List Char → Except ArithmeticFault (Int × List Char)
  | 0, _, _ => .error .malformed
  | bound + 1, [], l => evalUnary lookup bound l
  | bound + 1, ops :: levels, l => do
    let (a, r) ← evalLevels lookup bound levels l
    evalRest lookup bound ops levels a r

/-- Reads what a level's operators join to a value. -/
def evalRest (lookup : String → Int) :
    Nat → List (List Char) → List (List (List Char)) → Int → List Char →
      Except ArithmeticFault (Int × List Char)
  | 0, _, _, _, _ => .error .malformed
  | bound + 1, ops, levels, a, l =>
    match takeOperator ops (skipBlank l) with
    | none => .ok (a, l)
    | some (op, r) => do
      let (b, r) ← evalLevels lookup bound levels r
      evalRest lookup bound ops levels (← applyOperator op a b) r

/-- Reads a number, a variable, a bracketed expression, or one with a sign. -/
def evalUnary (lookup : String → Int) : Nat → List Char → Except ArithmeticFault (Int × List Char)
  | 0, _ => .error .malformed
  | bound + 1, l =>
    match skipBlank l with
    | '-' :: r => (evalUnary lookup bound r).map fun (a, r) => (-a, r)
    | '+' :: r => evalUnary lookup bound r
    | '!' :: r => (evalUnary lookup bound r).map fun (a, r) => (ofBool (a == 0), r)
    | '~' :: r => (evalUnary lookup bound r).map fun (a, r) => (-a - 1, r)
    | '(' :: r => do
      let (a, r) ← evalChoice lookup bound r
      match skipBlank r with
      | ')' :: r => .ok (a, r)
      | _ => .error .malformed
    | c :: r =>
      let isPart (c : Char) : Bool := c.isAlphanum || c == '_'
      let word := (c :: r).takeWhile isPart
      let rest := (c :: r).dropWhile isPart
      if c.isDigit then match readNumber word with
        | some a => .ok (a, rest)
        | none => .error .malformed
      else if c.isAlpha ∨ c = '_' then .ok (lookup (String.ofList word), rest)
      else .error .malformed
    | [] => .error .malformed

/-- Reads an expression, with the choice `a ? b : c`. -/
def evalChoice (lookup : String → Int) : Nat → List Char → Except ArithmeticFault (Int × List Char)
  | 0, _ => .error .malformed
  | bound + 1, l => do
    let (a, r) ← evalLevels lookup bound operatorLevels l
    match skipBlank r with
    | '?' :: r =>
      let (b, r) ← evalChoice lookup bound r
      match skipBlank r with
      | ':' :: r =>
        let (c, r) ← evalChoice lookup bound r
        .ok (if a ≠ 0 then b else c, r)
      | _ => .error .malformed
    | _ => .ok (a, r)

end

/-- The value of an expression without assignments; an empty one is zero. -/
def evalWhole (lookup : String → Int) (l : List Char) : Except ArithmeticFault Int :=
  if (skipBlank l).isEmpty then .ok 0
  else do
    let (a, r) ← evalChoice lookup (20 * l.length + 40) l
    if (skipBlank r).isEmpty then .ok a else .error .malformed

/-- The operators that may stand before the `=` of an assignment. -/
def assigningOperators : List (List Char) :=
  [['<', '<'], ['>', '>'], ['+'], ['-'], ['*'], ['/'], ['%'], ['&'], ['|'], ['^'], []]

/-- The name that a whole expression assigns to, the operator before the `=`, and what
follows it. -/
def splitAssignment (l : List Char) : Option (String × List Char × List Char) :=
  let isPart (c : Char) : Bool := c.isAlphanum || c == '_'
  let l := skipBlank l
  let name := l.takeWhile isPart
  let rest := skipBlank (l.dropWhile isPart)
  if name.head?.any (!·.isDigit) then
    assigningOperators.findSome? fun op =>
      match (op ++ ['=']).isPrefixOf? rest with
      | some ('=' :: _) | none => none
      | some r => some (String.ofList name, op, r)
  else none

/-- The value of an expression, and the name that it is to be assigned to. -/
def evalExpression (lookup : String → Int) (l : List Char) :
    Except ArithmeticFault (Option String × Int) :=
  match splitAssignment l with
  | none => (evalWhole lookup l).map (none, ·)
  | some (name, op, r) => do
    let b ← evalWhole lookup r
    let value ← if op.isEmpty then .ok b else applyOperator op (lookup name) b
    return (some name, value)

end GoCell.Shell
