import GoCell.Proofs.Number.BinaryFormat
import GoCell.Proofs.Number.NearestIndex
import Mathlib.Data.Int.ConditionallyCompleteOrder

/-!
The double nearest to a rational. A finite double is a number of the double-precision
format, and a quotient is rounded as that format says; so no double is nearer to it, and
where another one is as near, the index of the result is even.
-/

namespace GoCell.Binary64

/-! ### Doubles as numbers of the format -/

theorem natCast_mul_div_unitsPerOne (m s : ℕ) :
    ((m * 2 ^ s : ℕ) : ℚ) / unitsPerOne = m * 2 ^ ((s : ℤ) - 1074) := by
  obtain ⟨k, hk, hunits⟩ := exists_unitsPerOne_eq
  rw [hunits, show (1074 : ℤ) = (k : ℤ) by rw [hk]; rfl, Nat.pow_eq,
    zpow_sub₀ (show (2 : ℚ) ≠ 0 by norm_num), zpow_natCast, zpow_natCast]
  push_cast
  rw [mul_div_assoc]

theorem significand_lt (index : ℕ) : significand index < 2 ^ 53 := by
  rcases Nat.lt_or_ge index binade with h | h
  · have hlt : index < 2 ^ 52 := h
    have hle : significand index ≤ index := Nat.sub_le _ _
    omega
  · exact (significand_mem_binade h).2

/-- A sign times a magnitude. -/
theorem signed_cast (negative : Bool) (n : ℕ) :
    (signed negative n : ℚ) = (if negative then -1 else 1) * (n : ℚ) := by
  cases negative <;> simp [signed]

theorem natAbs_signed (negative : Bool) (n : ℕ) : (signed negative n).natAbs = n := by
  cases negative <;> simp [signed]

theorem toRat?_finite (negative : Bool) (index : Fin finiteCount) :
    (finite negative index).toRat? =
      some ((signed negative (significand index) : ℚ) * 2 ^ ((scale index : ℤ) - 1074)) := by
  rw [toRat?, units, Nat.pow_eq, natCast_mul_div_unitsPerOne, signed_cast, mul_assoc]

theorem units_zero_div : ((units 0 : ℕ) : ℚ) / unitsPerOne = 0 := by
  have hzero : units 0 = 0 := by decide
  rw [hzero, Nat.cast_zero, zero_div]

theorem toRat?_zero (negative : Bool) : (zero negative).toRat? = some 0 := by
  rw [zero, toRat?, units_zero_div, mul_zero]

theorem exists_eq_of_toRat? {x : Binary64} {r : ℚ} (h : x.toRat? = some r) :
    ∃ k d : ℤ, |k| < 2 ^ BinaryFormat.double.bits ∧ BinaryFormat.double.least ≤ d ∧
      r = k * 2 ^ d := by
  cases x with
  | finite negative index =>
      rw [toRat?_finite] at h
      refine ⟨_, _, ?_, ?_, (Option.some.inj h).symm⟩
      · rw [Int.abs_eq_natAbs, natAbs_signed]
        exact_mod_cast significand_lt index
      · show -1074 ≤ _
        omega
  | infinite negative => cases h
  | nan => cases h

/-! ### Rounding a quotient -/

section Quotient

variable {num den : ℕ}

/-- The exponent of the spacing around a quotient. -/
def quotientScale (num den : ℕ) : ℕ := Nat.log2 (num / den) - 52

/-- The quotient in units of its spacing. -/
def quotientSignificand (num den : ℕ) : ℕ :=
  roundDiv .even num (den * 2 ^ quotientScale num den)

theorem nearestIndex_eq (num den : ℕ) :
    nearestIndex num den = quotientScale num den * binade + quotientSignificand num den := rfl

theorem two_zpow_eq (s : ℕ) : (2 : ℚ) ^ ((s : ℤ) - 1074) = 2 ^ s / unitsPerOne := by
  have h := natCast_mul_div_unitsPerOne 1 s
  rw [Nat.cast_one, one_mul, one_mul] at h
  rw [← h]
  push_cast
  rfl

theorem cast_unitsPerOne_pos : (0 : ℚ) < unitsPerOne := by exact_mod_cast unitsPerOne_pos

theorem div_div_unitsPerOne_lt (hden : 0 < den) {s : ℕ} (h : num / den < 2 ^ s) :
    (num : ℚ) / den / unitsPerOne < 2 ^ ((s : ℤ) - 1074) := by
  have hpos : (0 : ℚ) < den := by exact_mod_cast hden
  have hnat : num < 2 ^ s * den := (Nat.div_lt_iff_lt_mul hden).1 h
  rw [two_zpow_eq, div_lt_div_iff_of_pos_right cast_unitsPerOne_pos, div_lt_iff₀ hpos]
  exact_mod_cast hnat

theorem le_div_div_unitsPerOne (hden : 0 < den) {s : ℕ} (h : 2 ^ s ≤ num / den) :
    (2 : ℚ) ^ ((s : ℤ) - 1074) ≤ (num : ℚ) / den / unitsPerOne := by
  have hpos : (0 : ℚ) < den := by exact_mod_cast hden
  have hnat : 2 ^ s * den ≤ num := (Nat.le_div_iff_mul_le hden).1 h
  rw [two_zpow_eq, div_le_div_iff_of_pos_right cast_unitsPerOne_pos, le_div_iff₀ hpos]
  exact_mod_cast hnat

theorem div_lt_two_pow (num den : ℕ) : num / den < 2 ^ (quotientScale num den + 53) := by
  have hlog : Nat.log2 (num / den) + 1 ≤ quotientScale num den + 53 := by
    unfold quotientScale
    omega
  exact Nat.lt_log2_self.trans_le (Nat.pow_le_pow_right (by decide) hlog)

/-- Above the smallest spacing a quotient has all the bits of a significand. -/
theorem two_pow_le_div (h : 0 < quotientScale num den) :
    2 ^ (quotientScale num den + 52) ≤ num / den := by
  have hlog : quotientScale num den + 52 = Nat.log2 (num / den) := by
    unfold quotientScale at *
    omega
  have hne : num / den ≠ 0 := by
    intro hzero
    rw [quotientScale, hzero] at h
    exact absurd h (by decide)
  rw [hlog]
  exact Nat.log2_self_le hne

/-- A quotient is rounded to the double-precision format. -/
theorem rounds_quotient (num : ℕ) (hden : 0 < den) :
    BinaryFormat.double.Rounds ((num : ℚ) / den / unitsPerOne) (quotientSignificand num den)
      ((quotientScale num den : ℤ) - 1074) := by
  have hnonneg : (0 : ℚ) ≤ (num : ℚ) / den / unitsPerOne :=
    div_nonneg (div_nonneg (Nat.cast_nonneg _) (Nat.cast_nonneg _)) cast_unitsPerOne_pos.le
  constructor
  · show (-1074 : ℤ) ≤ _
    omega
  · rw [abs_of_nonneg hnonneg]
    show _ < (2 : ℚ) ^ ((quotientScale num den : ℤ) - 1074 + 53)
    rw [show (quotientScale num den : ℤ) - 1074 + 53 = (quotientScale num den + 53 : ℕ) - 1074 by
      push_cast; ring]
    exact div_div_unitsPerOne_lt hden (div_lt_two_pow num den)
  · intro hscale
    have hscale : -1074 < (quotientScale num den : ℤ) - 1074 := hscale
    rw [abs_of_nonneg hnonneg]
    show (2 : ℚ) ^ ((quotientScale num den : ℤ) - 1074 + 53 - 1) ≤ _
    rw [show (quotientScale num den : ℤ) - 1074 + 53 - 1 =
      (quotientScale num den + 52 : ℕ) - 1074 by push_cast; ring]
    exact le_div_div_unitsPerOne hden (two_pow_le_div (by omega))
  · have hunits := cast_unitsPerOne_pos
    have hquotient : (num : ℚ) / den / unitsPerOne / 2 ^ ((quotientScale num den : ℤ) - 1074) =
        num / (den * 2 ^ quotientScale num den : ℕ) := by
      have hpos : (0 : ℚ) < den := by exact_mod_cast hden
      rw [two_zpow_eq]
      push_cast
      field_simp
    rw [hquotient]
    exact nearestEven_roundDiv num (Nat.mul_pos hden (Nat.two_pow_pos _))

/-- A multiple of a spacing that is a whole binade or more, or of the smallest one, has the
index that is counted from the start of its binade. -/
theorem units_scale_mul_binade {s m : ℕ} (hle : m ≤ 2 * binade) (hs : s = 0 ∨ binade ≤ m) :
    units (s * binade + m) = m * 2 ^ s := by
  have hpos : 0 < binade := by decide
  have hdiv : (s * binade + m) / binade = s + m / binade := by
    rw [Nat.add_comm, Nat.add_mul_div_right _ _ hpos, Nat.add_comm]
  rcases Nat.lt_or_ge m binade with hlt | hge
  · obtain rfl : s = 0 := hs.resolve_right (by omega)
    have hscale : scale (0 * binade + m) = 0 := by
      rw [scale, hdiv, Nat.div_eq_of_lt hlt]
    rw [units, significand, hscale]
    simp
  · rcases Nat.lt_or_ge m (2 * binade) with hlt | htop
    · have hone : m / binade = 1 := by
        rw [Nat.div_eq_iff hpos]
        omega
      have hscale : scale (s * binade + m) = s := by
        rw [scale, hdiv, hone]
        rfl
      rw [units, significand, hscale, Nat.add_sub_cancel_left, Nat.pow_eq]
    · -- Rounding up has reached the next binade.
      obtain rfl : m = 2 * binade := hle.antisymm htop
      have hscale : scale (s * binade + 2 * binade) = s + 1 := by
        rw [scale, hdiv, Nat.mul_div_cancel _ hpos]
        rfl
      have hsub : s * binade + 2 * binade - (s + 1) * binade = binade := by
        rw [Nat.add_mul]
        omega
      rw [units, significand, hscale, hsub, Nat.pow_eq, Nat.pow_succ]
      ring

theorem units_nearestIndex (num : ℕ) (hden : 0 < den) :
    units (nearestIndex num den) = quotientSignificand num den * 2 ^ quotientScale num den := by
  have hround := rounds_quotient num hden
  refine units_scale_mul_binade ?_ ?_
  · have hle := hround.abs_significand_le
    rw [Nat.abs_cast] at hle
    exact_mod_cast hle
  · rcases Nat.eq_zero_or_pos (quotientScale num den) with hzero | hpos
    · exact .inl hzero
    · right
      have hle := hround.le_abs_significand (show (-1074 : ℤ) < _ by omega)
      rw [Nat.abs_cast] at hle
      exact_mod_cast hle

theorem units_nearestIndex_div (num : ℕ) (hden : 0 < den) :
    ((units (nearestIndex num den) : ℕ) : ℚ) / unitsPerOne =
      (quotientSignificand num den : ℤ) * 2 ^ ((quotientScale num den : ℤ) - 1074) := by
  rw [units_nearestIndex num hden, natCast_mul_div_unitsPerOne, Int.cast_natCast]

end Quotient

/-! ### The nearest double -/

/-- Whether the significand of a double is even; an index counts on by one where the
significand does. -/
def HasEvenIndex : Binary64 → Prop
  | .finite _ index => Even index.val
  | _ => False

/-- Whether a double is nearest to a rational, and even where others are as near. -/
def IsNearest (q : ℚ) (x : Binary64) : Prop :=
  ∃ r, x.toRat? = some r ∧ ∀ (y : Binary64) (s : ℚ), y.toRat? = some s →
    |q - r| ≤ |q - s| ∧ (|q - s| = |q - r| → s ≠ r → x.HasEvenIndex)

theorem IsNearest.exists_toRat? {q : ℚ} {x : Binary64} (h : IsNearest q x) :
    ∃ r, x.toRat? = some r :=
  h.imp fun _ hr => hr.1

/-- A double is nearest to its own value. -/
theorem isNearest_self {x : Binary64} {r : ℚ} (h : x.toRat? = some r) : IsNearest r x := by
  refine ⟨r, h, fun y s hs => ⟨?_, fun heq hne => absurd ?_ hne⟩⟩
  · rw [sub_self, abs_zero]
    exact abs_nonneg _
  · rw [sub_self, abs_zero, abs_eq_zero, sub_eq_zero] at heq
    exact heq.symm

/-- A number that a rational rounds to in the format is nearest to it, if it is a double. -/
theorem IsNearest.of_rounds {q : ℚ} {m e : ℤ} {x : Binary64}
    (h : BinaryFormat.double.Rounds q m e) (hx : x.toRat? = some ((m : ℚ) * 2 ^ e))
    (heven : Even m → x.HasEvenIndex) : IsNearest q x := by
  refine ⟨_, hx, fun y s hs => ?_⟩
  obtain ⟨k, d, hk, hd, rfl⟩ := exists_eq_of_toRat? hs
  exact ⟨h.abs_sub_le hk hd, fun heq hne => heven (h.even_of_abs_sub_eq hk hd hne heq)⟩

/-- The nearest double is found by rounding a quotient of units. -/
theorem isNearest_finite {num den : ℕ} (hden : 0 < den) (negative : Bool)
    (h : nearestIndex num den < finiteCount) :
    IsNearest ((if negative then -1 else 1) * ((num : ℚ) / den / unitsPerOne))
      (.finite negative ⟨nearestIndex num den, h⟩) := by
  have hround := rounds_quotient num hden
  have hvalue := units_nearestIndex_div num hden
  have heven : Even (quotientSignificand num den : ℤ) → Even (nearestIndex num den) := by
    intro hm
    have hbinade : Even binade := by decide
    rw [nearestIndex_eq]
    exact (hbinade.mul_left _).add ((Int.even_coe_nat _).1 hm)
  cases negative with
  | false =>
      rw [if_neg (by decide), one_mul]
      refine .of_rounds hround ?_ heven
      rw [toRat?, if_neg (by decide), one_mul, hvalue]
  | true =>
      rw [if_pos rfl, neg_one_mul]
      refine .of_rounds hround.neg ?_ fun hm => heven (by simpa using hm)
      rw [toRat?, if_pos rfl, neg_one_mul, hvalue, Int.cast_neg, neg_mul]

/-! ### There is one nearest double -/

/-- Magnitudes grow with their indices, by the spacing at each. -/
theorem units_succ (index : ℕ) : units (index + 1) = units index + 2 ^ scale index := by
  have hpos : 0 < binade := by decide
  have hsplit : scale index * binade + significand index = index := by
    have hle : scale index * binade ≤ index :=
      (Nat.mul_le_mul_right _ (Nat.sub_le _ 1)).trans (Nat.div_mul_le_self index binade)
    rw [significand]
    omega
  have hlt : significand index < 2 * binade := significand_lt index
  have hscale : scale index = 0 ∨ binade ≤ significand index + 1 := by
    rcases Nat.lt_or_ge index binade with h | h
    · left
      rw [scale, Nat.div_eq_of_lt h]
    · right
      have := (significand_mem_binade h).1
      omega
  have hsucc := units_scale_mul_binade (s := scale index) (m := significand index + 1) (by omega)
    hscale
  rw [← Nat.add_assoc, hsplit] at hsucc
  rw [hsucc, units, Nat.pow_eq, Nat.add_mul, Nat.one_mul]

theorem strictMono_units : StrictMono units := by
  refine strictMono_nat_of_lt_succ fun index => ?_
  rw [units_succ]
  exact Nat.lt_add_of_pos_right (Nat.two_pow_pos _)

theorem units_div_lt (index : ℕ) :
    (units index : ℚ) / unitsPerOne < (units (index + 1) : ℚ) / unitsPerOne := by
  rw [div_lt_div_iff_of_pos_right cast_unitsPerOne_pos]
  exact_mod_cast strictMono_units (Nat.lt_succ_self index)

/-- The value of the double with a signed index. -/
def valueAt : ℤ → ℚ
  | .ofNat index => (units index : ℚ) / unitsPerOne
  | .negSucc index => -((units (index + 1) : ℚ) / unitsPerOne)

theorem strictMono_valueAt : StrictMono valueAt := by
  have hzero : valueAt 0 = 0 := units_zero_div
  refine strictMono_int_of_lt_succ fun k => ?_
  cases k with
  | ofNat n => exact units_div_lt n
  | negSucc n =>
      cases n with
      | zero =>
          have hone := units_div_lt 0
          rw [units_zero_div] at hone
          show -((units 1 : ℚ) / unitsPerOne) < valueAt 0
          rw [hzero]
          exact neg_lt_zero.2 hone
      | succ n => exact neg_lt_neg (units_div_lt (n + 1))

theorem toRat?_eq_valueAt (negative : Bool) (index : Fin finiteCount) :
    (finite negative index).toRat? = some (valueAt (signed negative index)) := by
  obtain ⟨index, hindex⟩ := index
  cases negative with
  | false =>
      rw [toRat?, if_neg (by decide), one_mul]
      rfl
  | true =>
      rw [toRat?, if_pos rfl, neg_one_mul]
      cases index with
      | zero =>
          show some (-((units 0 : ℚ) / unitsPerOne)) = some ((units 0 : ℚ) / unitsPerOne)
          rw [units_zero_div, neg_zero]
      | succ index => rfl

/-- There is a double at each signed index up to that of another one. -/
theorem exists_toRat?_eq_valueAt {k : ℤ} (h : k.natAbs < finiteCount) :
    ∃ x : Binary64, x.toRat? = some (valueAt k) := by
  refine ⟨.finite (k < 0) ⟨k.natAbs, h⟩, ?_⟩
  rw [toRat?_eq_valueAt, signed_natAbs]

/-- Between two doubles with even indices there is another one. -/
theorem exists_between {x y : Binary64} {r s : ℚ} (hr : x.toRat? = some r) (hs : y.toRat? = some s)
    (hx : x.HasEvenIndex) (hy : y.HasEvenIndex) (hlt : s < r) :
    ∃ (z : Binary64) (t : ℚ), z.toRat? = some t ∧ s < t ∧ t < r := by
  cases x with
  | finite negative index =>
      cases y with
      | finite negative' index' =>
          rw [toRat?_eq_valueAt] at hr hs
          cases hr
          cases hs
          have hkeys := strictMono_valueAt.lt_iff_lt.1 hlt
          have heven : Even (signed negative index) := by
            cases negative <;> simpa [signed, HasEvenIndex] using hx
          have heven' : Even (signed negative' index') := by
            cases negative' <;> simpa [signed, HasEvenIndex] using hy
          have hgap : signed negative' index' + 1 < signed negative index := by
            obtain ⟨a, ha⟩ := heven
            obtain ⟨b, hb⟩ := heven'
            omega
          have hbound : (signed negative' index' + 1).natAbs < finiteCount := by
            have habs := natAbs_signed negative index
            have habs' := natAbs_signed negative' index'
            have hlt := index.isLt
            have hlt' := index'.isLt
            omega
          obtain ⟨z, hz⟩ := exists_toRat?_eq_valueAt hbound
          exact ⟨z, _, hz, strictMono_valueAt (by omega), strictMono_valueAt hgap⟩
      | infinite _ => cases hs
      | nan => cases hs
  | infinite _ => cases hr
  | nan => cases hr

/-- Of two points, the nearer one is on the same side of their middle. -/
theorem middle_le_of_abs_sub_le {q r s : ℚ} (hlt : s < r) (h : |q - r| ≤ |q - s|) :
    (r + s) / 2 ≤ q := by
  by_contra hbelow
  have hr : r - q ≤ |q - r| := by
    rw [abs_sub_comm]
    exact le_abs_self _
  rcases abs_choice (q - s) with hs | hs <;> linarith

theorem le_middle_of_abs_sub_le {q r s : ℚ} (hlt : s < r) (h : |q - s| ≤ |q - r|) :
    q ≤ (r + s) / 2 := by
  by_contra habove
  have hs : q - s ≤ |q - s| := le_abs_self _
  rcases abs_choice (q - r) with hr | hr <;> linarith

/-- Rounding to the nearest double keeps the order; so there is one nearest value. -/
theorem IsNearest.mono {p q r s : ℚ} {x y : Binary64} (hx : IsNearest p x) (hy : IsNearest q y)
    (hr : x.toRat? = some r) (hs : y.toRat? = some s) (h : p ≤ q) : r ≤ s := by
  obtain ⟨r', hr', hnearx⟩ := hx
  obtain ⟨s', hs', hneary⟩ := hy
  obtain rfl : r' = r := Option.some.inj (hr'.symm.trans hr)
  obtain rfl : s' = s := Option.some.inj (hs'.symm.trans hs)
  by_contra hle
  have hlt : s' < r' := not_le.1 hle
  -- Both rationals are then the middle of the two values, and both doubles are even.
  have hp := middle_le_of_abs_sub_le hlt (hnearx y s' hs).1
  have hq := le_middle_of_abs_sub_le hlt (hneary x r' hr).1
  obtain rfl : p = (r' + s') / 2 := by linarith
  obtain rfl : q = (r' + s') / 2 := by linarith
  have hrdist : |(r' + s') / 2 - r'| = (r' - s') / 2 := by
    rw [abs_sub_comm, abs_of_pos] <;> linarith
  have hsdist : |(r' + s') / 2 - s'| = (r' - s') / 2 := by
    rw [abs_of_pos] <;> linarith
  have heq := hsdist.trans hrdist.symm
  obtain ⟨z, t, hz, hst, htr⟩ := exists_between hr hs ((hnearx y s' hs).2 heq hlt.ne)
    ((hneary x r' hr).2 heq.symm hlt.ne') hlt
  have hnear := (hnearx z t hz).1
  rw [hrdist] at hnear
  have htdist : |(r' + s') / 2 - t| < (r' - s') / 2 := by
    rw [abs_lt]
    constructor <;> linarith
  exact absurd hnear (not_le.2 htdist)

/-! ### Integers -/

theorem exists_eq_finite_of_isFinite {negative : Bool} {num den : ℕ}
    (h : (ofUnits negative num den).isFinite) :
    ∃ hlt, ofUnits negative num den = .finite negative ⟨nearestIndex num den, hlt⟩ := by
  unfold ofUnits at *
  split at h
  · next hlt => exact ⟨hlt, by rw [dif_pos hlt]⟩
  · cases h

/-- A sign, and a magnitude in units, make up an integer. -/
theorem sign_mul_units_div (n : ℤ) :
    (if decide (n < 0) then -1 else 1) *
      (((n.natAbs * unitsPerOne : ℕ) : ℚ) / unitsPerOne) = n := by
  rw [Nat.cast_mul, mul_div_cancel_right₀ _ cast_unitsPerOne_pos.ne', Nat.cast_natAbs]
  by_cases hn : n < 0
  · simp [hn, abs_of_neg hn]
  · simp [hn, abs_of_nonneg (not_lt.1 hn)]

/-- An integer of 64 bits becomes the double nearest to it, with its sign. -/
theorem isNearest_ofInt {n : ℤ} (h : n.natAbs < 2 ^ 64) :
    ∃ index, ofInt n = .finite (n < 0) index ∧ IsNearest n (.finite (n < 0) index) := by
  obtain ⟨hlt, heq⟩ := exists_eq_finite_of_isFinite (isFinite_ofInt h)
  refine ⟨_, heq, ?_⟩
  have hnear := isNearest_finite Nat.one_pos (decide (n < 0)) hlt
  rwa [Nat.cast_one, div_one, sign_mul_units_div] at hnear

/-- A multiple of its spacing is not changed by rounding. -/
theorem units_nearestIndex_of_dvd {num : ℕ} (h : 2 ^ quotientScale num 1 ∣ num) :
    units (nearestIndex num 1) = num := by
  obtain ⟨c, hc⟩ := h
  have hround : quotientSignificand num 1 = c := by
    rw [quotientSignificand, Nat.one_mul]
    conv_lhs => enter [2]; rw [hc, Nat.mul_comm]
    exact roundDiv_mul_self _ _ (Nat.two_pow_pos _)
  rw [units_nearestIndex num Nat.one_pos, hround, Nat.mul_comm]
  exact hc.symm

/-- Up to `2 ^ 53` integers are multiples of their spacings. -/
theorem two_pow_quotientScale_dvd {n : ℕ} (h : n ≤ 2 ^ 53) :
    2 ^ quotientScale (n * unitsPerOne) 1 ∣ n * unitsPerOne := by
  obtain ⟨k, -, hunits⟩ := exists_unitsPerOne_eq
  have hunits : unitsPerOne = 2 ^ k := hunits
  rw [hunits, quotientScale, Nat.div_one]
  rcases h.eq_or_lt with rfl | hlt
  · rw [← Nat.pow_add, Nat.log2_two_pow]
    exact Nat.pow_dvd_pow 2 (Nat.sub_le _ _)
  · refine Nat.dvd_mul_left_of_dvd (Nat.pow_dvd_pow 2 ?_) _
    rcases Nat.eq_zero_or_pos n with rfl | hpos
    · simp
    · have hne : n * 2 ^ k ≠ 0 := (Nat.mul_pos hpos (Nat.two_pow_pos k)).ne'
      have hlog : Nat.log2 (n * 2 ^ k) < 53 + k := by
        rw [Nat.log2_lt hne, Nat.pow_add]
        exact (Nat.mul_lt_mul_right (Nat.two_pow_pos k)).2 hlt
      omega

/-- Up to `2 ^ 53` an integer is a double. -/
theorem exists_ofInt_eq {n : ℤ} (h : n.natAbs ≤ 2 ^ 53) :
    ∃ index, ofInt n = .finite (n < 0) index ∧ units index = n.natAbs * unitsPerOne := by
  have hfinite : n.natAbs < 2 ^ 64 := h.trans_lt (by decide)
  obtain ⟨hlt, heq⟩ := exists_eq_finite_of_isFinite (isFinite_ofInt hfinite)
  exact ⟨_, heq, units_nearestIndex_of_dvd (two_pow_quotientScale_dvd h)⟩

end GoCell.Binary64
