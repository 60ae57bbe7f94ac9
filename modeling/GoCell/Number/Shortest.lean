import GoCell.Number.Numeral

/-!
The shortest decimal of a double: the fewest significant digits that read back
as the same double, and of the decimals with that many digits the nearest. On
the grid of decimals with `n` digits only the two neighbours of the value need
be tried, and seventeen digits always suffice.
-/

namespace GoCell

/-- The value `digits * 10 ^ exponent`. -/
structure Decimal where
  digits : Nat
  exponent : Int

namespace Binary64

/-- The `k` with `10 ^ (k - 1) ≤ x < 10 ^ k`, for the positive magnitude `x` with
this index. -/
def pointPosition (index : Nat) : Int :=
  (writeNat (units index * Nat.pow 10 330 / unitsPerOne)).length - 330

/-- Whether a decimal reads back as the magnitude with this index. -/
def readsBack (index : Nat) (d : Decimal) : Bool :=
  nearestIndex (d.digits * Nat.pow 10 d.exponent.toNat * unitsPerOne)
    (Nat.pow 10 (-d.exponent).toNat) == index

/-- The decimal on the grid `10 ^ exponent` that reads back as the magnitude with
this index; the nearer one where both its neighbours do. -/
def gridDecimal? (tie : Tie) (index : Nat) (exponent : Int) : Option Decimal :=
  let num := units index * Nat.pow 10 (-exponent).toNat
  let den := unitsPerOne * Nat.pow 10 exponent.toNat
  let below : Decimal := ⟨num / den, exponent⟩
  let above : Decimal := ⟨num / den + 1, exponent⟩
  if readsBack index below then
    if readsBack index above then some ⟨roundDiv tie num den, exponent⟩ else some below
  else if readsBack index above then some above
  else none

/-- The exact decimal value of the magnitude with this index. -/
def exactDecimal (index : Nat) : Decimal := ⟨units index * Nat.pow 5 1074, -1074⟩

/-- The shortest decimal of the positive magnitude with this index. -/
def shortest (tie : Tie) (index : Nat) : Decimal :=
  let k := pointPosition index
  ((List.range 17).findSome? fun n : Nat => gridDecimal? tie index (k - (n + 1 : Nat))).getD
    (exactDecimal index)

end Binary64

end GoCell
