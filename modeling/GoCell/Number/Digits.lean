/-!
Decimal digits of natural numbers, written and read.
-/

namespace GoCell

/-- The decimal digits of a natural number, without superfluous zeros. -/
def writeNat (n : Nat) : List Char := Nat.toDigits 10 n

/-- The number that a list of decimal digits denotes; zero for no digits. -/
def readDigits (ds : List Char) : Nat := Nat.ofDigitChars 10 ds 0

/-- A minus sign for negative numbers, then the digits of the magnitude. -/
def writeInt (n : Int) : List Char :=
  if n < 0 then '-' :: writeNat n.natAbs else writeNat n.natAbs

@[simp] theorem readDigits_writeNat (n : Nat) : readDigits (writeNat n) = n := by
  simp [readDigits, writeNat]

theorem isDigit_of_mem_writeNat {n : Nat} {c : Char} (h : c ∈ writeNat n) : c.isDigit :=
  Nat.isDigit_of_mem_toDigits (by decide) (by decide) h

theorem writeNat_ne_nil (n : Nat) : writeNat n ≠ [] := by
  simp [writeNat]

end GoCell
