import GoCell.Json.Fault

/-!
The tokens of JSON. Each function reads one of them at the front of a text and
returns it with the rest, or says what is wrong.
-/

namespace GoCell.Json

/-- What a reader returns: a result and the rest of the text. -/
abbrev Scan (α : Type) := Except Fault (α × List Char)

/-- Space, tab, LF and CR separate tokens. -/
def isSpace (c : Char) : Bool := c == ' ' || c == '\t' || c == '\n' || c == '\r'

def skipSpace (l : List Char) : List Char := l.dropWhile isSpace

/-- Reads the rest of a literal name. -/
def scanWord : List Char → List Char → Except Fault (List Char)
  | [], l => .ok l
  | _ :: _, [] => .error .endInValue
  | w :: ws, c :: r => if c = w then scanWord ws r else .error .expectedWord

def hexValue? (c : Char) : Option Nat :=
  let n := c.toNat
  if c.isDigit then some (n - 48)
  else if 'a' ≤ c ∧ c ≤ 'f' then some (n - 87)
  else if 'A' ≤ c ∧ c ≤ 'F' then some (n - 55)
  else none

/-- The code unit that four hexadecimal digits at the front of a text denote. A
text of fewer than four bytes has ended early. -/
def codeUnit (l : List Char) : Except Fault Nat :=
  let fault := if (String.ofList (l.take 4)).utf8ByteSize < 4 then Fault.endInString
    else Fault.invalidEscape
  match l.take 4 |>.mapM hexValue? with
  | some [a, b, c, d] => .ok (((a * 16 + b) * 16 + c) * 16 + d)
  | _ => .error fault

def isHighSurrogate (n : Nat) : Bool := 0xd800 ≤ n && n ≤ 0xdbff

def isLowSurrogate (n : Nat) : Bool := 0xdc00 ≤ n && n ≤ 0xdfff

/-- The low surrogate that must follow a high one, as an escape of its own. -/
def lowSurrogate : List Char → Except Fault Nat
  | [] => .error .endInString
  | c :: r =>
    if c ≠ '\\' then .error .unfinishedSurrogate
    else match r with
      | [] => .error .endInString
      | c :: r =>
        if c ≠ 'u' then .error .unfinishedSurrogate
        else do
          let low ← codeUnit r
          if isLowSurrogate low then .ok low else .error .loneSurrogate

/-- The character that a one-letter escape stands for. -/
def escaped? (c : Char) : Option Char :=
  if c = '"' ∨ c = '\\' ∨ c = '/' then some c
  else if c = 'b' then some '\x08'
  else if c = 'f' then some '\x0c'
  else if c = 'n' then some '\n'
  else if c = 'r' then some '\r'
  else if c = 't' then some '\t'
  else none

/-- Reads the content of a string and its closing quote. -/
def scanText : List Char → Scan (List Char)
  | [] => .error .endInString
  | c :: r =>
    if c = '"' then .ok ([], r)
    else if c = '\\' then
      match r with
      | [] => .error .endInString
      | e :: r =>
        if e = 'u' then
          match codeUnit r, r with
          | .error f, _ => .error f
          | .ok unit, _ :: _ :: _ :: _ :: r =>
            if isLowSurrogate unit then .error .loneSurrogate
            else if isHighSurrogate unit then
              match lowSurrogate r, r with
              | .error f, _ => .error f
              | .ok low, _ :: _ :: _ :: _ :: _ :: _ :: r =>
                (scanText r).map fun (cs, rest) =>
                  (Char.ofNat (0x10000 + (unit - 0xd800) * 0x400 + (low - 0xdc00)) :: cs, rest)
              | .ok _, _ => .error .endInString
            else (scanText r).map fun (cs, rest) => (Char.ofNat unit :: cs, rest)
          | .ok _, _ => .error .endInString
        else match escaped? e with
          | some x => (scanText r).map fun (cs, rest) => (x :: cs, rest)
          | none => .error .invalidEscape
    else if c.toNat < 0x20 then .error .controlCharacter
    else (scanText r).map fun (cs, rest) => (c :: cs, rest)

/-- Passes over the content of a string and its closing quote. Escapes are checked
one by one, so surrogates need not be paired. -/
def skipText : List Char → Except Fault (List Char)
  | [] => .error .endInString
  | c :: r =>
    if c = '"' then .ok r
    else if c = '\\' then
      match r with
      | [] => .error .endInString
      | e :: r =>
        if e = 'u' then
          match codeUnit r, r with
          | .error f, _ => .error f
          | .ok _, _ :: _ :: _ :: _ :: r => skipText r
          | .ok _, _ => .error .endInString
        else if (escaped? e).isSome then skipText r
        else .error .invalidEscape
    else if c.toNat < 0x20 then .error .controlCharacter
    else skipText r

/-- At least one digit. `atEnd` is the fault where the text ends instead. -/
def scanDigits (atEnd : Fault) (l : List Char) : Scan (List Char) :=
  match l.takeWhile Char.isDigit, l.dropWhile Char.isDigit with
  | [], [] => .error atEnd
  | [], _ :: _ => .error .invalidNumber
  | ds, r => .ok (ds, r)

/-- The fraction of a number, without its point, where there is one. -/
def scanFraction (atEnd : Fault) : List Char → Scan (Option (List Char))
  | [] => .ok (none, [])
  | c :: r =>
    if c = '.' then (scanDigits atEnd r).map fun (ds, r) => (some ds, r)
    else .ok (none, c :: r)

/-- The exponent of a number, where there is one. -/
def scanExponent (atEnd : Fault) : List Char → Except Fault (Option Int × List Char)
  | [] => .ok (none, [])
  | c :: r =>
    if c = 'e' ∨ c = 'E' then do
      let (negative, r) := takeSign r
      let (ds, r) ← scanDigits atEnd r
      let n : Int := readDigits ds
      .ok (some (if negative then -n else n), r)
    else .ok (none, c :: r)

/-- A number as it is written. -/
structure Literal where
  negative : Bool
  whole : List Char
  fraction : Option (List Char)
  exponent : Option Int

/-- Reads a number that starts with a minus sign or a digit. -/
def scanNumber (atEnd : Fault) (l : List Char) :
    Except Fault (Literal × List Char) := do
  let (negative, l) := match l with
    | '-' :: r => (true, r)
    | l => (false, l)
  let (whole, l) ← scanDigits atEnd l
  if whole.head? = some '0' ∧ 1 < whole.length then .error .invalidNumber
  else
    let (fraction, l) ← scanFraction atEnd l
    let (exponent, l) ← scanExponent atEnd l
    .ok ({ negative, whole, fraction, exponent }, l)

/-- Integers are those written without fraction and exponent, from `-2 ^ 63` to
below `2 ^ 64` and not `-0`; every other number is a double. Which double is an assumption
about the reader in use (serde_json): that it is the one nearest to the number, of two the even
one. Where that reader is not set to read floats exactly it may come out one unit in the last
place off, as for `51.248178375505404`. -/
def Literal.toJson (n : Literal) : Except Fault Json :=
  let magnitude := readDigits n.whole
  let integral := n.fraction.isNone && n.exponent.isNone
  if integral && !n.negative && magnitude < Nat.pow 2 64 then .ok (.integer magnitude)
  else if integral && n.negative && 0 < magnitude && magnitude ≤ Nat.pow 2 63 then
    .ok (.integer (-magnitude))
  else
    let numeral : Numeral :=
      ⟨n.negative, n.whole, n.fraction.getD [], n.exponent.getD 0⟩
    match numeral.toBinary64 with
    | .finite negative index => .ok (.real (.finite negative index))
    | _ => .error .numberOutOfRange

end GoCell.Json
