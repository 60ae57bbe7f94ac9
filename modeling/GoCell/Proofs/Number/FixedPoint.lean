import GoCell.Number.Fixed
import Mathlib.Data.Rat.Cast.Order
import Mathlib.Algebra.Order.Field.Basic
import Mathlib.Algebra.Ring.Parity
import Mathlib.Tactic.FieldSimp
import Mathlib.Tactic.Linarith
import Mathlib.Tactic.NormNum
import Mathlib.Tactic.Ring

/-!
The exact value of a double, and what its fixed-point text denotes: the
multiple of a power of ten that is nearest to that value. Nearness is stated in
the rationals, without the division of naturals that finds the multiple.
-/

namespace GoCell

/-- A magnitude with a sign. -/
def signed (negative : Bool) (n : Nat) : ℤ := if negative then -n else n

theorem signed_natAbs (n : ℤ) : signed (n < 0) n.natAbs = n := by
  unfold signed
  split
  · next hn =>
      have hneg : n < 0 := of_decide_eq_true hn
      omega
  · next hn =>
      have hnonneg : ¬n < 0 := fun hneg => hn (decide_eq_true hneg)
      omega

/-- `m` is the integer nearest to `x`, the even one of two that are equally near. -/
structure NearestEven (x : ℚ) (m : ℤ) : Prop where
  near : |x - m| ≤ 1 / 2
  even_of_tie : |x - m| = 1 / 2 → Even m

theorem NearestEven.neg {x : ℚ} {m : ℤ} (h : NearestEven x m) : NearestEven (-x) (-m) := by
  have hdist : |-x - (-m : ℤ)| = |x - m| := by
    rw [← abs_neg (x - m)]
    congr 1
    push_cast
    ring
  refine ⟨hdist ▸ h.near, ?_⟩
  intro htie
  exact (h.even_of_tie (hdist ▸ htie)).neg

/-- Only a remainder of half the divisor leaves a distance of half a unit. -/
theorem two_mul_mod_of_tie {num den : Nat} (hden : 0 < den)
    (htie : 2 * num = 2 * (roundDiv .even num den * den) + den ∨
      2 * num + den = 2 * (roundDiv .even num den * den)) :
    2 * (num % den) = den := by
  have hsplit := Nat.div_add_mod' num den
  have hlt := Nat.mod_lt num hden
  rcases roundDiv_eq_or .even num den with hq | hq
  · rw [hq] at htie
    omega
  · rw [hq, Nat.add_mul, Nat.one_mul] at htie
    omega

theorem even_roundDiv_of_tie {num den : Nat} (htie : 2 * (num % den) = den) :
    Even (roundDiv .even num den) := by
  have hround : roundDiv .even num den = num / den + num / den % 2 := by
    simp [roundDiv, htie]
  rw [hround, Nat.even_iff]
  omega

/-- Rounding half to even finds the nearest integer. -/
theorem nearestEven_roundDiv (num : Nat) {den : Nat} (hden : 0 < den) :
    NearestEven ((num : ℚ) / den) (roundDiv .even num den : Nat) := by
  have hpos : (0 : ℚ) < den := by exact_mod_cast hden
  have hscale : ∀ q : Nat, ((num : ℚ) / den - q) * den = num - q * den := by
    intro q
    field_simp
  obtain ⟨hlow, hhigh⟩ := two_mul_roundDiv_mul_le .even num hden
  have hlow : (2 * (roundDiv .even num den * den) : ℚ) ≤ 2 * num + den := by exact_mod_cast hlow
  have hhigh : (2 * num : ℚ) ≤ 2 * (roundDiv .even num den * den) + den := by
    exact_mod_cast hhigh
  constructor
  · rw [abs_le]
    push_cast
    constructor
    · refine le_of_mul_le_mul_right ?_ hpos
      rw [hscale]
      linarith
    · refine le_of_mul_le_mul_right ?_ hpos
      rw [hscale]
      linarith
  · intro htie
    have hsides : 2 * num = 2 * (roundDiv .even num den * den) + den ∨
        2 * num + den = 2 * (roundDiv .even num den * den) := by
      rcases eq_or_eq_neg_of_abs_eq htie with hside | hside
      · left
        have hscaled := congrArg (· * (den : ℚ)) hside
        simp only [Int.cast_natCast, hscale] at hscaled
        have hrat : (2 * num : ℚ) = 2 * (roundDiv .even num den * den) + den := by linarith
        exact_mod_cast hrat
      · right
        have hscaled := congrArg (· * (den : ℚ)) hside
        simp only [Int.cast_natCast, hscale] at hscaled
        have hrat : (2 * num + den : ℚ) = 2 * (roundDiv .even num den * den) := by linarith
        exact_mod_cast hrat
    exact_mod_cast even_roundDiv_of_tie (two_mul_mod_of_tie hden hsides)

theorem roundDiv_le (tie : Tie) (num den : Nat) : roundDiv tie num den ≤ num / den + 1 := by
  rcases roundDiv_eq_or tie num den with h | h <;> omega

namespace Binary64

/-- The power of two behind the units, with an exponent that stays a variable. -/
theorem exists_unitsPerOne_eq : ∃ k, k = 1074 ∧ unitsPerOne = Nat.pow 2 k :=
  ⟨1074, rfl, by delta unitsPerOne; rfl⟩

theorem unitsPerOne_pos : 0 < unitsPerOne := by
  obtain ⟨k, -, hk⟩ := exists_unitsPerOne_eq
  exact hk ▸ Nat.two_pow_pos k

/-- The exact value of a finite double. -/
def toRat? : Binary64 → Option ℚ
  | .finite negative index =>
    some ((if negative then -1 else 1) * ((units index : ℚ) / unitsPerOne))
  | _ => none

theorem nearestEven_toPlaces (places : Nat) (negative : Bool) (index : Nat) :
    NearestEven ((if negative then -1 else 1) * ((units index : ℚ) / unitsPerOne) * 10 ^ places)
      (signed negative (toPlaces places index)) := by
  have habs : NearestEven ((units index : ℚ) / unitsPerOne * 10 ^ places)
      (toPlaces places index : Nat) := by
    have h := nearestEven_roundDiv (units index * Nat.pow 10 places) unitsPerOne_pos
    have hscale : ((units index * Nat.pow 10 places : Nat) : ℚ) / unitsPerOne =
        (units index : ℚ) / unitsPerOne * 10 ^ places := by
      rw [show Nat.pow 10 places = 10 ^ places from rfl]
      push_cast
      ring
    rw [hscale] at h
    exact h
  cases negative with
  | false =>
      rw [signed, if_neg (by decide), if_neg (by decide), one_mul]
      exact habs
  | true =>
      rw [signed, if_pos rfl, if_pos rfl, neg_one_mul, neg_mul]
      exact habs.neg

/-- A quotient below `2 ^ 1138` units is below the largest double. -/
theorem nearestIndex_lt_finiteCount {num den k : Nat} (h : num / den < 2 ^ k) (hk : k ≤ 1138) :
    nearestIndex num den < finiteCount := by
  have hlog : Nat.log2 (num / den) - 52 ≤ 1085 := by
    rcases Nat.eq_zero_or_pos (num / den) with hzero | hpos
    · simp [hzero]
    · have := (Nat.log2_lt (by omega)).2 h
      omega
  have hpiece : num / den / 2 ^ (Nat.log2 (num / den) - 52) < 2 ^ 53 := by
    refine Nat.div_lt_of_lt_mul ?_
    rw [← Nat.pow_add]
    calc
      num / den < 2 ^ (Nat.log2 (num / den) + 1) := Nat.lt_log2_self
      _ ≤ 2 ^ (Nat.log2 (num / den) - 52 + 53) := Nat.pow_le_pow_right (by decide) (by omega)
  have hround : roundDiv .even num (den * 2 ^ (Nat.log2 (num / den) - 52)) ≤ 2 ^ 53 := by
    refine (roundDiv_le _ _ _).trans ?_
    rw [← Nat.div_div_eq_div_mul]
    omega
  simp only [nearestIndex, finiteCount, binade, Nat.pow_eq]
  omega

theorem isFinite_ofUnits {negative : Bool} {num den : Nat}
    (h : nearestIndex num den < finiteCount) : (ofUnits negative num den).isFinite := by
  rw [ofUnits, dif_pos h, isFinite]

/-- Integers of 64 bits are far from the largest double. -/
theorem isFinite_ofInt {n : Int} (h : n.natAbs < 2 ^ 64) : (ofInt n).isFinite := by
  obtain ⟨k, hk, hunits⟩ := exists_unitsPerOne_eq
  have hquotient : n.natAbs * unitsPerOne / 1 < 2 ^ (64 + k) := by
    rw [Nat.div_one, hunits, Nat.pow_add, Nat.pow_eq]
    exact (Nat.mul_lt_mul_right (Nat.two_pow_pos k)).2 h
  exact isFinite_ofUnits (nearestIndex_lt_finiteCount hquotient (by omega))

end Binary64

end GoCell
