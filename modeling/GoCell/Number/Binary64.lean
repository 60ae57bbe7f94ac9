import GoCell.Number.Rounding

/-!
The double-precision numbers of IEEE 754, without machine floats. A finite
number is a sign and the index of its magnitude in the increasing list of all
finite magnitudes; the index is also the number's bit pattern without the sign.
Magnitudes are counted in units of `2 ^ -1074`, the smallest of them, so every
one is a natural number of units and rounding is division in `Nat`.
-/

namespace GoCell

namespace Binary64

/-- The number of indices that share one spacing. -/
def binade : Nat := Nat.pow 2 52

/-- The number of finite magnitudes, zero included. -/
def finiteCount : Nat := 2047 * binade

/-- How many units make one. -/
def unitsPerOne : Nat := Nat.pow 2 1074

end Binary64

inductive Binary64
  | finite (negative : Bool) (index : Fin Binary64.finiteCount)
  | infinite (negative : Bool)
  | nan
  deriving DecidableEq

namespace Binary64

/-- The spacing of magnitudes around an index is `2 ^ scale` units. -/
def scale (index : Nat) : Nat := index / binade - 1

def significand (index : Nat) : Nat := index - scale index * binade

/-- The magnitude with this index. -/
def units (index : Nat) : Nat := significand index * Nat.pow 2 (scale index)

/-- The index of the magnitude nearest to `num / den` units, the even one of two
that are equally near. Where no finite magnitude is that large it is at least
`finiteCount`. -/
def nearestIndex (num den : Nat) : Nat :=
  let s := Nat.log2 (num / den) - 52
  s * binade + roundDiv .even num (den * Nat.pow 2 s)

/-- The double nearest to `num / den` units; past the largest it is infinite. -/
def ofUnits (negative : Bool) (num den : Nat) : Binary64 :=
  if h : nearestIndex num den < finiteCount then
    .finite negative ⟨nearestIndex num den, h⟩
  else .infinite negative

def zero (negative : Bool) : Binary64 := .finite negative ⟨0, by decide⟩

/-- The double nearest to an integer. -/
def ofInt (n : Int) : Binary64 := ofUnits (n < 0) (n.natAbs * unitsPerOne) 1

def isFinite : Binary64 → Bool
  | .finite _ _ => true
  | _ => false

end Binary64

end GoCell
