import GoCell.Number.Fixed
import GoCell.Number.Numeral
import GoCell.Shell.Arithmetic
import GoCell.Text.Utf8

/-!
Formatted output of the shell: backslash escapes and the directives of `printf`.
-/

namespace GoCell.Shell

open Text (encodeUtf8)

def charBytes (c : Char) : List UInt8 := encodeUtf8 (String.singleton c)

/-- The byte of an escape with one letter. -/
def letterEscape? (c : Char) : Option UInt8 :=
  match c with
  | 'a' => some 7
  | 'b' => some 8
  | 'e' => some 27
  | 'f' => some 12
  | 'n' => some 10
  | 'r' => some 13
  | 't' => some 9
  | 'v' => some 11
  | '\\' => some 92
  | _ => none

def isOctal (c : Char) : Bool := '0' ≤ c && c ≤ '7'

def octalByte (ds : List Char) : UInt8 := UInt8.ofNat (Nat.ofDigitChars 8 ds 0)

/-- What an escape stands for, given the text after its backslash, and the rest. In
an argument an octal number starts with zero, and `\c` ends all output: then there
is no rest. -/
def escape (inArgument : Bool) (l : List Char) : List UInt8 × Option (List Char) :=
  match l with
  | [] => ([92], some [])
  | c :: r =>
    if inArgument ∧ c = 'c' then ([], none)
    else if inArgument ∧ c = '0' then
      let ds := (r.take 3).takeWhile isOctal
      ([octalByte ds], some (r.drop ds.length))
    else if !inArgument ∧ isOctal c then
      let ds := (l.take 3).takeWhile isOctal
      ([octalByte ds], some (l.drop ds.length))
    else if !inArgument ∧ c = '"' then ([34], some r)
    else match letterEscape? c with
      | some b => ([b], some r)
      | none => (92 :: charBytes c, some r)

/-- The bytes of an argument with escapes, and whether output goes on after it. -/
def expandEscapes : Nat → List Char → List UInt8 × Bool
  | 0, _ => ([], true)
  | _, [] => ([], true)
  | bound + 1, '\\' :: r =>
    match escape true r with
    | (bytes, none) => (bytes, false)
    | (bytes, some rest) =>
      let (more, goesOn) := expandEscapes bound rest
      (bytes ++ more, goesOn)
  | bound + 1, c :: r =>
    let (more, goesOn) := expandEscapes bound r
    (charBytes c ++ more, goesOn)

/-- A directive: its flags, width, precision and letter. -/
structure Directive where
  flags : List Char
  width : Nat
  precision : Option Nat
  letter : Char

/-- The output so far, the arguments that are left, and what went wrong. -/
structure Printing where
  out : List UInt8 := []
  arguments : List String := []
  consumed : Bool := false
  stopped : Bool := false
  faults : List String := []
  status : Nat := 0

namespace Printing

def put (p : Printing) (bytes : List UInt8) : Printing := { p with out := p.out ++ bytes }

/-- The next argument, empty where there is none. -/
def next (p : Printing) : String × Printing :=
  match p.arguments with
  | a :: as => (a, { p with arguments := as, consumed := true })
  | [] => ("", { p with consumed := true })

end Printing

/-- Fills up to a width, with zeros after the sign where a number asks for them. -/
def pad (d : Directive) (isNumber : Bool) (bytes : List UInt8) : List UInt8 :=
  let missing := d.width - bytes.length
  if d.flags.contains '-' then bytes ++ List.replicate missing 32
  else if isNumber ∧ d.flags.contains '0' ∧ d.precision.isNone then
    match bytes with
    | b :: r =>
      if b = 45 ∨ b = 43 then b :: (List.replicate missing 48 ++ r)
      else List.replicate missing 48 ++ bytes
    | [] => List.replicate missing 48
  else List.replicate missing 32 ++ bytes

/-- The integer that an argument denotes: a quote before a character gives its
code. -/
def integerArgument (a : String) : Option Int :=
  match a.toList with
  | [] => some 0
  | '"' :: c :: _ => some c.toNat
  | '\'' :: c :: _ => some c.toNat
  | '-' :: r => (readNumber r).map (-·)
  | '+' :: r => readNumber r
  | l => readNumber l

def toChars (bytes : List UInt8) : List Char := bytes.map fun b => Char.ofNat b.toNat

def asciiBytes (l : List Char) : List UInt8 := l.map fun c => UInt8.ofNat c.toNat

/-- Digits with a least count of them. -/
def leastDigits (d : Directive) (ds : List Char) : List Char :=
  List.replicate (d.precision.getD 0 - ds.length) '0' ++ ds

/-- The output of a directive for an integer. -/
def printInteger (d : Directive) (n : Int) : List UInt8 :=
  let unsigned := (Int64.ofInt n).toUInt64.toNat
  let text : List Char := match d.letter with
    | 'x' => leastDigits d (Nat.toDigits 16 unsigned)
    | 'X' => (leastDigits d (Nat.toDigits 16 unsigned)).map Char.toUpper
    | 'o' => leastDigits d (Nat.toDigits 8 unsigned)
    | 'u' => leastDigits d (Nat.toDigits 10 unsigned)
    | _ =>
      let ds := leastDigits d (writeNat n.natAbs)
      if n < 0 then '-' :: ds else if d.flags.contains '+' then '+' :: ds
      else if d.flags.contains ' ' then ' ' :: ds else ds
  pad d true (asciiBytes text)

/-- The output of a directive for a float. -/
def printFloat (d : Directive) (x : Binary64) : List UInt8 :=
  match x with
  | .finite negative index =>
    let places := d.precision.getD 6
    let text := Binary64.writeFixed places negative index
    let text := if places = 0 then text.takeWhile (· ≠ '.') else text
    pad { d with precision := none } true
      (asciiBytes (if !negative && d.flags.contains '+' then '+' :: text else text))
  | .infinite negative => pad d false (asciiBytes (if negative then "-inf" else "inf").toList)
  | .nan => pad d false (asciiBytes "nan".toList)

/-- Carries a directive out. -/
def applyDirective (d : Directive) (p : Printing) : Printing :=
  if d.letter = '%' then p.put [37]
  else
    let (a, p) := p.next
    match d.letter with
    | 's' =>
      let bytes := encodeUtf8 a
      p.put (pad d false ((d.precision.map bytes.take).getD bytes))
    | 'c' => p.put (pad d false ((encodeUtf8 a).take 1))
    | 'b' =>
      let (bytes, goesOn) := expandEscapes (a.length + 1) a.toList
      let p := p.put (pad d false bytes)
      if goesOn then p else { p with stopped := true }
    | 'd' | 'i' | 'u' | 'o' | 'x' | 'X' =>
      match integerArgument a with
      | some n => p.put (printInteger d n)
      | none =>
        let n := (readNumber (a.toList.takeWhile Char.isDigit)).getD 0
        { p.put (printInteger d n) with
          status := 1
          faults := p.faults ++ [if a.toList.head?.any Char.isDigit then a ++
            ": not completely converted" else a ++ ": expected numeric value"] }
    | 'f' | 'F' | 'e' | 'E' | 'g' | 'G' =>
      let a := if a = "" then "0" else a
      p.put (printFloat d (((Numeral.read? a.toList).map Numeral.toBinary64).getD (.zero false)))
    | letter =>
      { p with
        stopped := true
        status := 2
        faults := p.faults ++ ["%" ++ String.singleton letter ++ ": invalid directive"] }

/-- Reads a directive after its percent sign. A star takes a number from the
arguments. -/
def scanDirective (p : Printing) (l : List Char) : Directive × Printing × List Char :=
  let isFlag (c : Char) : Bool := c == '-' || c == '+' || c == ' ' || c == '0' || c == '#'
  let count (p : Printing) (l : List Char) : Option Nat × Printing × List Char :=
    match l with
    | '*' :: r =>
      let (a, p) := p.next
      (some ((integerArgument a).getD 0).toNat, p, r)
    | l =>
      let ds := l.takeWhile Char.isDigit
      (if ds.isEmpty then none else some (readDigits ds), p, l.dropWhile Char.isDigit)
  let flags := l.takeWhile isFlag
  let (width, p, r) := count p (l.dropWhile isFlag)
  let (precision, p, r) := match r with
    | '.' :: r =>
      let (n, p, r) := count p r
      (some (n.getD 0), p, r)
    | r => (none, p, r)
  match r with
  | c :: r => (⟨flags, width.getD 0, precision, c⟩, p, r)
  | [] => (⟨flags, width.getD 0, precision, '%'⟩, p, [])

/-- Goes through a format once. -/
def printOnce : Nat → List Char → Printing → Printing
  | 0, _, p => p
  | _, [], p => p
  | bound + 1, c :: r, p =>
    if p.stopped then p
    else if c = '%' then
      let (d, p, rest) := scanDirective p r
      printOnce bound rest (applyDirective d p)
    else if c = '\\' then
      let (bytes, rest) := escape false r
      printOnce bound (rest.getD []) (p.put bytes)
    else printOnce bound r (p.put (charBytes c))

/-- Goes through a format until the arguments are used up. -/
def printAll (format : List Char) : Nat → Printing → Printing
  | 0, p => p
  | rounds + 1, p =>
    let p := printOnce (format.length + 1) format { p with consumed := false }
    if p.stopped || p.arguments.isEmpty || !p.consumed then p else printAll format rounds p

/-- The output of `printf`, and what went wrong. -/
def printFormatted (format : String) (arguments : List String) : Printing :=
  printAll format.toList (arguments.length + 1) { arguments }

/-- The output of `echo`, whose arguments may have escapes. -/
def echo (arguments : List String) : List UInt8 :=
  let (newline, arguments) := match arguments with
    | "-n" :: r => (false, r)
    | as => (true, as)
  let text := " ".intercalate arguments
  let (bytes, goesOn) := expandEscapes (text.length + 1) text.toList
  if newline && goesOn then bytes ++ [10] else bytes

end GoCell.Shell
