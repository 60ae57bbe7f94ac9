import GoCell.Proofs.Number.Digits
import GoCell.Proofs.Number.NearestDouble

/-!
Decimals rounded to doubles. A decimal has a finite double exactly where its magnitude fits
the double-precision format, and that one is then the nearest to it, with its sign. The
bounds at which a decimal is rounded without a power of ten play no part in this.
-/

namespace GoCell

namespace Binary64

/-! ### The range of doubles -/

/-- After the largest magnitude comes the bound of the format. -/
theorem units_finiteCount_div :
    ((units finiteCount : ℕ) : ℚ) / unitsPerOne = 2 ^ BinaryFormat.double.bound := by
  obtain ⟨s, hs⟩ : ∃ s, s = 2046 := ⟨_, rfl⟩
  have hcount : finiteCount = s * binade + binade := by
    rw [hs]
    rfl
  have hbinade : ((binade : ℕ) : ℚ) = 2 ^ (52 : ℤ) := by
    rw [binade, Nat.pow_eq]
    norm_num
  rw [hcount, units_scale_mul_binade (Nat.le_mul_of_pos_left _ (by decide)) (.inr le_rfl),
    natCast_mul_div_unitsPerOne, hbinade, ← BinaryFormat.two_zpow_add]
  congr 1
  rw [hs]
  rfl

section Quotient

variable {num den : ℕ} (hden : 0 < den)

include hden

/-- A quotient has a finite magnitude nearest to it where it fits the format. -/
theorem nearestIndex_lt_iff_fits :
    nearestIndex num den < finiteCount ↔
      BinaryFormat.double.Fits ((num : ℚ) / den / unitsPerOne) := by
  have hnonneg : (0 : ℚ) ≤ (units (nearestIndex num den) : ℕ) / unitsPerOne :=
    div_nonneg (Nat.cast_nonneg _) cast_unitsPerOne_pos.le
  rw [BinaryFormat.fits_iff, ← (rounds_quotient num hden).lt_bound_iff,
    ← units_nearestIndex_div num hden, abs_of_nonneg hnonneg, ← units_finiteCount_div,
    div_lt_div_iff_of_pos_right cast_unitsPerOne_pos, Nat.cast_lt, strictMono_units.lt_iff_lt]

theorem isFinite_ofUnits_iff {negative : Bool} :
    (ofUnits negative num den).isFinite ↔
      BinaryFormat.double.Fits ((num : ℚ) / den / unitsPerOne) := by
  rw [← nearestIndex_lt_iff_fits hden]
  constructor
  · intro h
    obtain ⟨hlt, -⟩ := exists_eq_finite_of_isFinite h
    exact hlt
  · exact isFinite_ofUnits

end Quotient

/-! ### The double that a magnitude rounds to -/

/-- Whether a magnitude with a sign rounds to a double: it fits the format, and of all
doubles this one is nearest. -/
def IsRounded (negative : Bool) (q : ℚ) (x : Binary64) : Prop :=
  BinaryFormat.double.Fits q ∧ ∃ index, x = .finite negative index ∧
    IsNearest ((if negative then -1 else 1) * q) x

theorem eq_of_signed_eq {negative : Bool} {m n : ℕ} (h : signed negative m = signed negative n) :
    m = n := by
  rw [← natAbs_signed negative m, h, natAbs_signed]

theorem IsRounded.isFinite {negative : Bool} {q : ℚ} {x : Binary64} (h : IsRounded negative q x) :
    x.isFinite := by
  obtain ⟨-, index, rfl, -⟩ := h
  rfl

/-- A magnitude rounds to one double only. -/
theorem IsRounded.unique {negative : Bool} {q : ℚ} {x y : Binary64} (hx : IsRounded negative q x)
    (hy : IsRounded negative q y) : x = y := by
  obtain ⟨-, i, rfl, hi⟩ := hx
  obtain ⟨-, j, rfl, hj⟩ := hy
  have hvaluei := toRat?_eq_valueAt negative i
  have hvaluej := toRat?_eq_valueAt negative j
  have hvalue := le_antisymm (hi.mono hj hvaluei hvaluej le_rfl) (hj.mono hi hvaluej hvaluei le_rfl)
  have hindex := eq_of_signed_eq (strictMono_valueAt.injective hvalue)
  rw [Fin.ext hindex]

theorem isRounded_ofUnits {negative : Bool} {num den : ℕ} (hden : 0 < den)
    (h : (ofUnits negative num den).isFinite) :
    IsRounded negative ((num : ℚ) / den / unitsPerOne) (ofUnits negative num den) := by
  obtain ⟨hlt, heq⟩ := exists_eq_finite_of_isFinite h
  refine ⟨(isFinite_ofUnits_iff hden).1 h, _, heq, ?_⟩
  rw [heq]
  exact isNearest_finite hden negative hlt

/-! ### Decimals -/

/-- The units that a decimal is rounded from make up its magnitude. -/
theorem decimal_units_div (digits : ℕ) (exponent : ℤ) :
    ((digits * 10 ^ exponent.toNat * unitsPerOne : ℕ) : ℚ) / (10 ^ (-exponent).toNat : ℕ) /
      unitsPerOne = digits * 10 ^ exponent := by
  have hunits := cast_unitsPerOne_pos.ne'
  rw [Nat.cast_mul, div_right_comm, mul_div_cancel_right₀ _ hunits]
  push_cast
  rcases le_total 0 exponent with h | h
  · obtain ⟨n, rfl⟩ := Int.eq_ofNat_of_zero_le h
    simp
  · obtain ⟨n, hn⟩ := Int.eq_ofNat_of_zero_le (neg_nonneg.2 h)
    obtain rfl : exponent = -n := by omega
    simp [div_eq_mul_inv]

/-- A decimal has a finite double where it fits the format. -/
theorem isFinite_ofDecimal_iff {negative : Bool} {digits : ℕ} {exponent : ℤ} :
    (ofDecimal negative digits exponent).isFinite ↔
      BinaryFormat.double.Fits (digits * 10 ^ exponent) := by
  rw [ofDecimal_eq_ofUnits, isFinite_ofUnits_iff (Nat.pow_pos (by decide)), decimal_units_div]

/-- The finite double of a decimal is the one that it rounds to. -/
theorem ofDecimal_eq_iff {negative : Bool} {digits : ℕ} {exponent : ℤ} {x : Binary64} :
    ofDecimal negative digits exponent = x ∧ x.isFinite ↔
      IsRounded negative (digits * 10 ^ exponent) x := by
  have hrounded : (ofDecimal negative digits exponent).isFinite →
      IsRounded negative (digits * 10 ^ exponent) (ofDecimal negative digits exponent) := by
    rw [ofDecimal_eq_ofUnits, ← decimal_units_div]
    exact isRounded_ofUnits (Nat.pow_pos (by decide))
  constructor
  · rintro ⟨rfl, hfinite⟩
    exact hrounded hfinite
  · intro h
    exact ⟨(hrounded (isFinite_ofDecimal_iff.2 h.1)).unique h, h.isFinite⟩

end Binary64

namespace Numeral

/-- What the digits and the exponent of a numeral denote. -/
def magnitude (n : Numeral) : ℚ :=
  (readDigits n.whole + readDigits n.fraction / 10 ^ n.fraction.length) * 10 ^ n.exponent

theorem magnitude_eq (n : Numeral) :
    n.magnitude = readDigits (n.whole ++ n.fraction) * 10 ^ (n.exponent - n.fraction.length) := by
  rw [magnitude, readDigits_append, zpow_sub₀ (by norm_num), zpow_natCast]
  push_cast
  field_simp

theorem isFinite_toBinary64_iff {n : Numeral} :
    n.toBinary64.isFinite ↔ BinaryFormat.double.Fits n.magnitude := by
  rw [magnitude_eq]
  exact Binary64.isFinite_ofDecimal_iff

theorem toBinary64_eq_iff {n : Numeral} {x : Binary64} :
    n.toBinary64 = x ∧ x.isFinite ↔ x.IsRounded n.negative n.magnitude := by
  rw [magnitude_eq]
  exact Binary64.ofDecimal_eq_iff

end Numeral

end GoCell
