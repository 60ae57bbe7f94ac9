import GoCell.Number.Binary64
import GoCell.Number.Digits

/-!
Writing a double with a fixed number of decimal places: the exact binary value
is rounded to that many places, a half going to the even neighbour, and the
sign is kept also where the rest is zero.
-/

namespace GoCell

/-- Digits with leading zeros, `width` of them where the number is small enough. -/
def padNat (width n : Nat) : List Char :=
  let ds := writeNat n
  List.replicate (width - ds.length) '0' ++ ds

/-- A multiple of `10 ^ -places`, written out. -/
def writePlaces (places n : Nat) : List Char :=
  writeNat (n / Nat.pow 10 places) ++ '.' :: padNat places (n % Nat.pow 10 places)

/-- The magnitude with this index as a multiple of `10 ^ -places`. -/
def Binary64.toPlaces (places index : Nat) : Nat :=
  roundDiv .even (units index * Nat.pow 10 places) unitsPerOne

/-- The fixed-point text of a finite double. -/
def Binary64.writeFixed (places : Nat) (negative : Bool) (index : Nat) : List Char :=
  let text := writePlaces places (toPlaces places index)
  if negative then '-' :: text else text

end GoCell
