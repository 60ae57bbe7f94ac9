import GoCell.Number.Binary64
import GoCell.Number.Digits

/-!
Decimal numerals: reading integers, and reading digits with an optional
fraction and exponent to the nearest double.
-/

namespace GoCell

/-- The double nearest to `digits * 10 ^ exponent`. A nonzero value outside
`10 ^ -331` to `10 ^ 310` rounds to zero or to an infinity, so no power of ten
is formed for it. -/
def Binary64.ofDecimal (negative : Bool) (digits : Nat) (exponent : Int) : Binary64 :=
  let top := (writeNat digits).length + exponent
  if digits = 0 ∨ top < -330 then .zero negative
  else if 310 < top then .infinite negative
  else
    .ofUnits negative (digits * Nat.pow 10 exponent.toNat * unitsPerOne)
      (Nat.pow 10 (-exponent).toNat)

/-- A sign, digits before and after the point, and an exponent of ten. -/
structure Numeral where
  negative : Bool
  whole : List Char
  fraction : List Char
  exponent : Int

namespace Numeral

/-- The nearest double. -/
def toBinary64 (n : Numeral) : Binary64 :=
  .ofDecimal n.negative (readDigits (n.whole ++ n.fraction)) (n.exponent - n.fraction.length)

end Numeral

/-- An optional sign: whether it is a minus, and the rest. -/
def takeSign : List Char → Bool × List Char
  | '-' :: r => (true, r)
  | '+' :: r => (false, r)
  | l => (false, l)

/-- A text that consists of decimal digits, at least one. -/
def isDigits (l : List Char) : Bool := !l.isEmpty && l.all Char.isDigit

/-- An optional sign and digits, nothing else. -/
def readInt? (l : List Char) : Option Int :=
  let (negative, ds) := takeSign l
  if isDigits ds then some (if negative then -(readDigits ds : Int) else readDigits ds)
  else none

/-- The exponent part of a numeral, which may be absent: `e` or `E`, an optional
sign, digits, and the end of the text. -/
def readExponent? : List Char → Option Int
  | [] => some 0
  | c :: r => if c = 'e' ∨ c = 'E' then readInt? r else none

/-- Reads `[+-]? (digits [. digits*] | . digits) ([eE] [+-]? digits)?`. -/
def Numeral.read? (l : List Char) : Option Numeral :=
  let (negative, body) := takeSign l
  let whole := body.takeWhile Char.isDigit
  let rest := body.dropWhile Char.isDigit
  let (fraction, rest) := match rest with
    | '.' :: r => (r.takeWhile Char.isDigit, r.dropWhile Char.isDigit)
    | r => ([], r)
  if whole.isEmpty && fraction.isEmpty then none
  else (readExponent? rest).map fun exponent => { negative, whole, fraction, exponent }

end GoCell
