import GoCell.Proofs.Number.NearestEven
import Mathlib.Data.Int.Log
import Mathlib.Data.Rat.Floor

/-!
Binary floating-point formats. A rational is rounded to the nearest number with so many
significant bits, as if exponents had no upper bound; it fits a format if the result is
below the bound of the format. Main results: rounding finds the nearest number, and what
fits is what is below the point halfway between the largest number and the bound.
-/

namespace GoCell

/-- The bits of a significand, the exponent of the smallest spacing, and the exponent of
the bound of all finite magnitudes. -/
structure BinaryFormat where
  bits : ℕ
  least : ℤ
  bound : ℤ
  bits_pos : 0 < bits := by decide
  least_add_bits_le : least + bits ≤ bound := by decide

namespace BinaryFormat

/-- The single-precision numbers of IEEE 754. -/
def single : BinaryFormat := { bits := 24, least := -149, bound := 128 }

/-- The double-precision numbers of IEEE 754. -/
def double : BinaryFormat := { bits := 53, least := -1074, bound := 1024 }

/-- Whether a rational rounds to `m * 2 ^ e`. Magnitudes below `2 ^ (e + bits)` have the
spacing `2 ^ e`, and a smaller one only where they are below half of that. -/
structure Rounds (f : BinaryFormat) (q : ℚ) (m e : ℤ) : Prop where
  least_le : f.least ≤ e
  lt : |q| < 2 ^ (e + f.bits)
  le : f.least < e → 2 ^ (e + f.bits - 1) ≤ |q|
  nearest : NearestEven (q / 2 ^ e) m

/-- Whether a rational rounds to a finite number of the format. -/
def Fits (f : BinaryFormat) (q : ℚ) : Prop :=
  ∃ m e : ℤ, f.Rounds q m e ∧ |(m : ℚ) * 2 ^ e| < 2 ^ f.bound

/-- Halfway between the largest number of a format and its bound. -/
def limit (f : BinaryFormat) : ℚ := 2 ^ f.bound - 2 ^ (f.bound - f.bits - 1)

variable {f : BinaryFormat} {q : ℚ} {m e : ℤ}

theorem two_zpow_pos (e : ℤ) : (0 : ℚ) < 2 ^ e := zpow_pos (by norm_num) e

theorem two_zpow_add (a b : ℤ) : (2 : ℚ) ^ (a + b) = 2 ^ a * 2 ^ b :=
  zpow_add₀ (by norm_num) a b

theorem two_zpow_sub_one (e : ℤ) : (2 : ℚ) ^ (e - 1) = 2 ^ e / 2 := by
  rw [zpow_sub_one₀ (by norm_num), div_eq_mul_inv]

theorem two_zpow_le {a b : ℤ} (h : a ≤ b) : (2 : ℚ) ^ a ≤ 2 ^ b :=
  zpow_le_zpow_right₀ (by norm_num) h

theorem Rounds.neg (h : f.Rounds q m e) : f.Rounds (-q) (-m) e where
  least_le := h.least_le
  lt := by rw [abs_neg]; exact h.lt
  le := by rw [abs_neg]; exact h.le
  nearest := by rw [neg_div]; exact h.nearest.neg

/-- Every rational rounds to some number. -/
theorem exists_rounds (f : BinaryFormat) (q : ℚ) : ∃ m e, f.Rounds q m e := by
  by_cases hsmall : |q| < 2 ^ (f.least + f.bits)
  · obtain ⟨m, hm⟩ := exists_nearestEven (q / 2 ^ f.least)
    exact ⟨m, f.least, le_rfl, hsmall, fun h => absurd h (lt_irrefl _), hm⟩
  · have hpos : 0 < |q| := (two_zpow_pos _).trans_le (not_lt.1 hsmall)
    obtain ⟨e, he⟩ : ∃ e, e = Int.log 2 |q| - f.bits + 1 := ⟨_, rfl⟩
    have hlow : (2 : ℚ) ^ (e + f.bits - 1) ≤ |q| := by
      rw [show e + f.bits - 1 = Int.log 2 |q| by omega]
      exact_mod_cast Int.zpow_log_le_self (b := 2) (by norm_num) hpos
    have hhigh : |q| < 2 ^ (e + f.bits) := by
      rw [show e + f.bits = Int.log 2 |q| + 1 by omega]
      exact_mod_cast Int.lt_zpow_succ_log_self (b := 2) (by norm_num) |q|
    have hleast : f.least ≤ e := by
      by_contra hlt
      exact hsmall (hhigh.trans_le (two_zpow_le (by omega)))
    obtain ⟨m, hm⟩ := exists_nearestEven (q / 2 ^ e)
    exact ⟨m, e, hleast, hhigh, fun _ => hlow, hm⟩

/-! ### Significands -/

theorem intCast_two_pow (n : ℕ) : ((2 ^ n : ℤ) : ℚ) = 2 ^ (n : ℤ) := by
  rw [zpow_natCast]
  push_cast
  rfl

theorem abs_div_two_zpow (q : ℚ) (e : ℤ) : |q / 2 ^ e| = |q| / 2 ^ e := by
  rw [abs_div, abs_of_pos (two_zpow_pos e)]

theorem abs_mul_two_zpow (q : ℚ) (e : ℤ) : |q * 2 ^ e| = |q| * 2 ^ e := by
  rw [abs_mul, abs_of_pos (two_zpow_pos e)]

theorem Rounds.abs_significand_le (h : f.Rounds q m e) : |m| ≤ 2 ^ f.bits := by
  refine h.nearest.abs_le ?_
  rw [intCast_two_pow, abs_div_two_zpow, div_le_iff₀ (two_zpow_pos e), ← two_zpow_add, add_comm]
  exact h.lt.le

/-- Above the smallest spacing a significand has all its bits. -/
theorem Rounds.le_abs_significand (h : f.Rounds q m e) (he : f.least < e) :
    2 ^ (f.bits - 1) ≤ |m| := by
  have hbits := f.bits_pos
  refine h.nearest.le_abs ?_
  rw [intCast_two_pow, abs_div_two_zpow, le_div_iff₀ (two_zpow_pos e), ← two_zpow_add,
    show ((f.bits - 1 : ℕ) : ℤ) + e = e + f.bits - 1 by omega]
  exact h.le he

/-! ### Rounding finds the nearest number -/

theorem abs_sub_mul_zpow (q : ℚ) (k e : ℤ) :
    |q - k * 2 ^ e| = |q / 2 ^ e - k| * 2 ^ e := by
  have hpos := two_zpow_pos e
  rw [← abs_of_pos hpos, ← abs_mul, abs_of_pos hpos]
  congr 1
  field_simp

/-- On the grid of its spacing, no point is nearer. -/
theorem Rounds.abs_sub_le_of_grid (h : f.Rounds q m e) (k : ℤ) :
    |q - m * 2 ^ e| ≤ |q - k * 2 ^ e| := by
  rw [abs_sub_mul_zpow, abs_sub_mul_zpow]
  exact mul_le_mul_of_nonneg_right (h.nearest.abs_sub_le k) (two_zpow_pos e).le

/-- Numbers with a smaller spacing are further away. -/
theorem Rounds.abs_sub_lt_of_finer {k d : ℤ} (h : f.Rounds q m e) (hk : |k| < 2 ^ f.bits)
    (hd : f.least ≤ d) (hlt : d < e) : |q - m * 2 ^ e| < |q - k * 2 ^ d| := by
  have hbelow : |(k : ℚ) * 2 ^ d| < 2 ^ (e + f.bits - 1) := by
    have hk' : |(k : ℚ)| < 2 ^ (f.bits : ℤ) := by exact_mod_cast hk
    calc
      |(k : ℚ) * 2 ^ d| = |(k : ℚ)| * 2 ^ d := abs_mul_two_zpow _ _
      _ < 2 ^ (f.bits : ℤ) * 2 ^ d := mul_lt_mul_of_pos_right hk' (two_zpow_pos d)
      _ = 2 ^ (f.bits + d) := (two_zpow_add _ _).symm
      _ ≤ 2 ^ (e + f.bits - 1) := two_zpow_le (by omega)
  have hlow := h.le (hd.trans_lt hlt)
  -- The smallest number with the spacing of `q`, on the same side of zero.
  have hedge : ((2 ^ (f.bits - 1) : ℤ) : ℚ) * 2 ^ e = 2 ^ (e + f.bits - 1) := by
    have hbits := f.bits_pos
    rw [show e + f.bits - 1 = ((f.bits - 1 : ℕ) : ℤ) + e by omega, two_zpow_add, intCast_two_pow]
  rcases le_total 0 q with hq | hq
  · have hgrid := h.abs_sub_le_of_grid (2 ^ (f.bits - 1))
    rw [hedge] at hgrid
    rw [abs_of_nonneg hq] at hlow
    rw [abs_of_nonneg (sub_nonneg.2 hlow)] at hgrid
    have hfar : q - (k : ℚ) * 2 ^ d ≤ |q - k * 2 ^ d| := le_abs_self _
    linarith [(abs_lt.1 hbelow).2]
  · have hgrid := h.abs_sub_le_of_grid (-2 ^ (f.bits - 1))
    rw [Int.cast_neg, neg_mul, hedge, sub_neg_eq_add] at hgrid
    rw [abs_of_nonpos hq] at hlow
    rw [abs_of_nonpos (show q + 2 ^ (e + f.bits - 1) ≤ 0 by linarith)] at hgrid
    have hfar : -(q - (k : ℚ) * 2 ^ d) ≤ |q - k * 2 ^ d| := neg_le_abs _
    linarith [(abs_lt.1 hbelow).1]

/-- A number with the same spacing or a wider one is on the grid. -/
theorem exists_mul_zpow_eq (k : ℤ) {d : ℤ} (h : e ≤ d) :
    ∃ j : ℤ, (k : ℚ) * 2 ^ d = j * 2 ^ e := by
  refine ⟨k * 2 ^ (d - e).toNat, ?_⟩
  rw [show d = ((d - e).toNat : ℤ) + e by omega, two_zpow_add, zpow_natCast]
  push_cast
  rw [show ((d - e).toNat + e - e).toNat = (d - e).toNat by omega, mul_assoc]

/-- No number of the format is nearer than the one that a rational rounds to. -/
theorem Rounds.abs_sub_le {k d : ℤ} (h : f.Rounds q m e) (hk : |k| < 2 ^ f.bits)
    (hd : f.least ≤ d) : |q - m * 2 ^ e| ≤ |q - k * 2 ^ d| := by
  rcases lt_or_ge d e with hlt | hge
  · exact (h.abs_sub_lt_of_finer hk hd hlt).le
  · obtain ⟨j, hj⟩ := exists_mul_zpow_eq k hge
    rw [hj]
    exact h.abs_sub_le_of_grid j

/-- If another number is as near, the significand is even. -/
theorem Rounds.even_of_abs_sub_eq {k d : ℤ} (h : f.Rounds q m e) (hk : |k| < 2 ^ f.bits)
    (hd : f.least ≤ d) (hne : (k : ℚ) * 2 ^ d ≠ m * 2 ^ e)
    (heq : |q - k * 2 ^ d| = |q - m * 2 ^ e|) : Even m := by
  rcases lt_or_ge d e with hlt | hge
  · exact absurd heq (h.abs_sub_lt_of_finer hk hd hlt).ne'
  · obtain ⟨j, hj⟩ := exists_mul_zpow_eq k hge
    rw [hj] at hne heq
    rw [abs_sub_mul_zpow, abs_sub_mul_zpow] at heq
    have hjm : j ≠ m := by
      rintro rfl
      exact hne rfl
    exact h.nearest.even_of_abs_sub_eq hjm (mul_right_cancel₀ (two_zpow_pos e).ne' heq)

/-! ### The limit of a format -/

theorem limit_lt (f : BinaryFormat) : f.limit < 2 ^ f.bound :=
  sub_lt_self _ (two_zpow_pos _)

theorem two_zpow_le_limit (f : BinaryFormat) : (2 : ℚ) ^ (f.bound - 1) ≤ f.limit := by
  have hbits := f.bits_pos
  have hhalf : (2 : ℚ) ^ (f.bound - f.bits - 1) ≤ 2 ^ (f.bound - 1) := two_zpow_le (by omega)
  rw [two_zpow_sub_one f.bound] at hhalf ⊢
  rw [limit]
  linarith

/-- In units of the widest spacing the limit is half a unit below a power of two. -/
theorem limit_div (he : e + f.bits = f.bound) : f.limit / 2 ^ e = 2 ^ (f.bits : ℤ) - 1 / 2 := by
  have hpos := two_zpow_pos e
  rw [limit, show f.bound - f.bits - 1 = e - 1 by omega, two_zpow_sub_one, ← he, two_zpow_add]
  field_simp

/-- Half a unit below a power of two the tie goes to the power, since the integer before it
is odd. -/
theorem nearestEven_limit (f : BinaryFormat) :
    NearestEven (2 ^ (f.bits : ℤ) - 1 / 2) (2 ^ f.bits) := by
  rw [← intCast_two_pow]
  have hhalf : |((2 ^ f.bits : ℤ) : ℚ) - 1 / 2 - (2 ^ f.bits : ℤ)| = 1 / 2 := by
    rw [sub_sub_cancel_left, abs_neg, abs_of_pos (by norm_num)]
  refine ⟨hhalf.le, fun _ => ?_⟩
  exact even_two.pow_of_ne_zero f.bits_pos.ne'

theorem Rounds.bound_le_of_limit_le (h : f.Rounds q m e) (hq : f.limit ≤ |q|) :
    2 ^ f.bound ≤ |(m : ℚ) * 2 ^ e| := by
  have habove : f.bound ≤ e + f.bits := by
    by_contra hlt
    have hpow : (2 : ℚ) ^ (e + f.bits) ≤ 2 ^ (f.bound - 1) := two_zpow_le (by omega)
    linarith [f.two_zpow_le_limit, h.lt]
  have hsig : (2 : ℚ) ^ (f.bound - e) ≤ |(m : ℚ)| := by
    rcases habove.eq_or_lt with heq | hlt
    · -- In the topmost binade the limit is the first point that rounds up to the bound.
      have hx : 2 ^ (f.bits : ℤ) - 1 / 2 ≤ |q / 2 ^ e| := by
        rw [← limit_div heq.symm, abs_div_two_zpow]
        exact div_le_div_of_nonneg_right hq (two_zpow_pos e).le
      have hm : (2 ^ f.bits : ℤ) ≤ |m| := f.nearestEven_limit.mono h.nearest.abs hx
      have hm' : ((2 ^ f.bits : ℤ) : ℚ) ≤ |(m : ℚ)| := by exact_mod_cast hm
      rwa [intCast_two_pow, show (f.bits : ℤ) = f.bound - e by omega] at hm'
    · have hleast := f.least_add_bits_le
      have hbits := f.bits_pos
      have hm : ((2 ^ (f.bits - 1) : ℤ) : ℚ) ≤ |(m : ℚ)| := by
        exact_mod_cast h.le_abs_significand (by omega)
      rw [intCast_two_pow] at hm
      exact (two_zpow_le (by omega)).trans hm
  calc
    (2 : ℚ) ^ f.bound = 2 ^ (f.bound - e) * 2 ^ e := by rw [← two_zpow_add]; congr 1; omega
    _ ≤ |(m : ℚ)| * 2 ^ e := mul_le_mul_of_nonneg_right hsig (two_zpow_pos e).le
    _ = |(m : ℚ) * 2 ^ e| := (abs_mul_two_zpow _ _).symm

theorem Rounds.lt_bound_of_lt_limit (h : f.Rounds q m e) (hq : |q| < f.limit) :
    |(m : ℚ) * 2 ^ e| < 2 ^ f.bound := by
  have hbelow : e + f.bits ≤ f.bound := by
    rcases h.least_le.eq_or_lt with heq | hlt
    · rw [← heq]
      exact f.least_add_bits_le
    · by_contra hgt
      have hpow : (2 : ℚ) ^ f.bound ≤ 2 ^ (e + f.bits - 1) := two_zpow_le (by omega)
      linarith [f.limit_lt, h.le hlt]
  have hm : |(m : ℚ)| ≤ 2 ^ (f.bits : ℤ) := by
    rw [← intCast_two_pow]
    exact_mod_cast h.abs_significand_le
  have hpow : (2 : ℚ) ^ (f.bits : ℤ) * 2 ^ e = 2 ^ (e + f.bits) := by
    rw [← two_zpow_add, add_comm]
  rcases hbelow.eq_or_lt with heq | hlt
  · -- Below the limit the significand stays below the power of two.
    have hne : |(m : ℚ)| ≠ 2 ^ (f.bits : ℤ) := by
      intro hpower
      have hlow : |q / 2 ^ e| < 2 ^ (f.bits : ℤ) - 1 / 2 := by
        rw [← limit_div heq, abs_div_two_zpow]
        exact div_lt_div_of_pos_right hq (two_zpow_pos e)
      have hnear := (abs_le.1 h.nearest.abs.near).1
      rw [Int.cast_abs, hpower] at hnear
      linarith
    rw [abs_mul_two_zpow, ← heq, ← hpow]
    exact mul_lt_mul_of_pos_right (lt_of_le_of_ne hm hne) (two_zpow_pos e)
  · calc
      |(m : ℚ) * 2 ^ e| ≤ 2 ^ (f.bits : ℤ) * 2 ^ e := by
        rw [abs_mul_two_zpow]
        exact mul_le_mul_of_nonneg_right hm (two_zpow_pos e).le
      _ = 2 ^ (e + f.bits) := hpow
      _ < 2 ^ f.bound := zpow_lt_zpow_right₀ (by norm_num) hlt

/-- What is below the limit rounds to a number below the bound, and nothing else does. -/
theorem Rounds.lt_bound_iff (h : f.Rounds q m e) :
    |(m : ℚ) * 2 ^ e| < 2 ^ f.bound ↔ |q| < f.limit := by
  constructor
  · intro hlt
    by_contra hge
    exact absurd hlt (not_lt.2 (h.bound_le_of_limit_le (not_lt.1 hge)))
  · exact h.lt_bound_of_lt_limit

theorem fits_iff : f.Fits q ↔ |q| < f.limit := by
  constructor
  · rintro ⟨m, e, hround, hlt⟩
    exact hround.lt_bound_iff.1 hlt
  · intro hq
    obtain ⟨m, e, hround⟩ := f.exists_rounds q
    exact ⟨m, e, hround, hround.lt_bound_iff.2 hq⟩

end BinaryFormat

end GoCell
