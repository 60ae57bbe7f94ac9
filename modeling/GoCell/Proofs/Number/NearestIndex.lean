import GoCell.Number.Shortest
import GoCell.Proofs.Number.Digits
import GoCell.Proofs.Number.FixedPoint

/-!
The nearest double to a quotient. It depends on the value of the quotient only, it
is the value itself where that is a magnitude, and what lies below half the smallest
magnitude or above the largest has no finite one other than zero. So the bounds at
which a decimal is rounded without a power of ten never decide the result.
-/

namespace GoCell

theorem roundDiv_mul_mul (tie : Tie) (num den : Nat) {k : Nat} (hk : 0 < k) :
    roundDiv tie (num * k) (den * k) = roundDiv tie num den := by
  have hdouble : 2 * (num % den * k) = 2 * (num % den) * k := by rw [Nat.mul_assoc]
  simp only [roundDiv, Nat.mul_div_mul_right _ _ hk, Nat.mul_mod_mul_right, hdouble,
    Nat.mul_lt_mul_right hk]

theorem roundDiv_of_neighbours {P : Nat → Prop} {tie : Tie} {num den : Nat}
    (hbelow : P (num / den)) (habove : P (num / den + 1)) : P (roundDiv tie num den) := by
  rcases roundDiv_eq_or tie num den with h | h
  · exact h ▸ hbelow
  · exact h ▸ habove

theorem div_le_roundDiv (tie : Tie) (num den : Nat) : num / den ≤ roundDiv tie num den :=
  roundDiv_of_neighbours (P := (num / den ≤ ·)) (Nat.le_refl _) (Nat.le_succ _)

namespace Binary64

theorem nearestIndex_mul_mul (num den : Nat) {k : Nat} (hk : 0 < k) :
    nearestIndex (num * k) (den * k) = nearestIndex num den := by
  simp only [nearestIndex, Nat.mul_div_mul_right _ _ hk]
  rw [Nat.mul_right_comm den k, roundDiv_mul_mul _ _ _ hk]

theorem nearestIndex_congr {num den num' den' : Nat} (hden : 0 < den) (hden' : 0 < den')
    (h : num * den' = num' * den) : nearestIndex num den = nearestIndex num' den' := by
  rw [← nearestIndex_mul_mul num den hden', h, Nat.mul_comm den den',
    nearestIndex_mul_mul num' den' hden]

/-- Above the first binade a significand has all its 53 bits. -/
theorem significand_mem_binade {index : Nat} (h : binade ≤ index) :
    binade ≤ significand index ∧ significand index < 2 * binade := by
  have hpos : 0 < binade := by decide
  have hone : 1 ≤ index / binade := (Nat.one_le_div_iff hpos).2 h
  have hsplit := Nat.div_add_mod' index binade
  have hlt := Nat.mod_lt index hpos
  have hscale : scale index * binade + binade = index / binade * binade := by
    rw [← Nat.succ_mul, scale, Nat.succ_eq_add_one, Nat.sub_add_cancel hone]
  unfold significand
  omega

theorem log2_units {index : Nat} (h : binade ≤ index) :
    Nat.log2 (units index) = 52 + scale index := by
  obtain ⟨hlow, hhigh⟩ := significand_mem_binade h
  have hpow : 0 < 2 ^ scale index := Nat.two_pow_pos _
  have hne : units index ≠ 0 := by
    have hbinade : 0 < binade := by decide
    exact (Nat.mul_pos (hbinade.trans_le hlow) hpow).ne'
  refine (Nat.log2_eq_iff hne).2 ⟨?_, ?_⟩
  · rw [Nat.pow_add]
    exact Nat.mul_le_mul_right _ hlow
  · rw [show 52 + scale index + 1 = 53 + scale index by omega, Nat.pow_add]
    exact (Nat.mul_lt_mul_right hpow).2 hhigh

/-- A magnitude is the nearest one to itself. -/
theorem nearestIndex_units (index : Nat) : nearestIndex (units index) 1 = index := by
  rcases Nat.lt_or_ge index binade with h | h
  -- below the first binade the index counts the units
  · have hdiv : index / binade = 0 := Nat.div_eq_of_lt h
    have hunits : units index = index := by simp [units, significand, scale, hdiv]
    have hlog : Nat.log2 index - 52 = 0 := by
      rcases Nat.eq_zero_or_pos index with rfl | hpos
      · simp
      · have := (Nat.log2_lt (k := 53) (by omega)).2 (h.trans (by decide))
        omega
    rw [nearestIndex, hunits, Nat.div_one, hlog]
    simpa using roundDiv_mul_self .even index Nat.one_pos
  · have hscale : scale index * binade ≤ index := by
      have := significand_mem_binade h
      have : 0 < binade := by decide
      unfold significand at *
      omega
    rw [nearestIndex, Nat.div_one, log2_units h, Nat.add_sub_cancel_left, Nat.one_mul, units,
      roundDiv_mul_self _ _ (show 0 < Nat.pow 2 _ from Nat.two_pow_pos _), significand]
    omega

/-- Less than half a unit rounds to zero. -/
theorem nearestIndex_eq_zero {num den : Nat} (h : 2 * num < den) : nearestIndex num den = 0 := by
  have hdiv : num / den = 0 := Nat.div_eq_of_lt (by omega)
  have hmod : num % den = num := Nat.mod_eq_of_lt (by omega)
  simp [nearestIndex, roundDiv, hdiv, hmod, h]

/-- From `2 ^ 2098` units on there is no finite magnitude. -/
theorem finiteCount_le_nearestIndex {num den k : Nat} (hk : 2098 ≤ k)
    (h : 2 ^ k ≤ num / den) : finiteCount ≤ nearestIndex num den := by
  have hne : num / den ≠ 0 := (Nat.two_pow_pos k).trans_le h |>.ne'
  have hlog : k ≤ Nat.log2 (num / den) := (Nat.le_log2 hne).2 h
  have hpiece : binade ≤ num / (den * 2 ^ (Nat.log2 (num / den) - 52)) := by
    rw [← Nat.div_div_eq_div_mul, Nat.le_div_iff_mul_le (Nat.two_pow_pos _)]
    calc
      binade * 2 ^ (Nat.log2 (num / den) - 52) = 2 ^ Nat.log2 (num / den) := by
        rw [show binade = 2 ^ 52 from rfl, ← Nat.pow_add]
        congr 1
        omega
      _ ≤ num / den := Nat.log2_self_le hne
  have hround := div_le_roundDiv .even num (den * 2 ^ (Nat.log2 (num / den) - 52))
  have hscale : 2046 * binade ≤ (Nat.log2 (num / den) - 52) * binade :=
    Nat.mul_le_mul_right _ (by omega)
  rw [nearestIndex, finiteCount, Nat.pow_eq]
  omega

/-! ### Decimals -/

theorem two_pow_le_ten_pow {a b : Nat} (h : 62 * a ≤ 205 * b) : 2 ^ a ≤ 10 ^ b := by
  refine (Nat.pow_le_pow_iff_left (show 62 ≠ 0 by decide)).1 ?_
  calc
    (2 ^ a) ^ 62 = 2 ^ (62 * a) := by rw [← Nat.pow_mul, Nat.mul_comm]
    _ ≤ 2 ^ (205 * b) := Nat.pow_le_pow_right (by decide) h
    _ = (2 ^ 205) ^ b := Nat.pow_mul 2 205 b
    _ ≤ (10 ^ 62) ^ b := Nat.pow_le_pow_left (by decide) b
    _ = (10 ^ b) ^ 62 := Nat.pow_right_comm 10 62 b

/-- Below `10 ^ -330` is less than half the smallest magnitude. -/
theorem nearestIndex_of_top_lt {digits : Nat} {exponent : Int}
    (h : (writeNat digits).length + exponent < -330) :
    nearestIndex (digits * 10 ^ exponent.toNat * unitsPerOne) (10 ^ (-exponent).toNat) = 0 := by
  obtain ⟨k, hk, hunits⟩ := exists_unitsPerOne_eq
  obtain ⟨m, hm⟩ : ∃ m, (-exponent).toNat = (writeNat digits).length + m :=
    ⟨(-exponent).toNat - (writeNat digits).length, by omega⟩
  have hexponent : exponent.toNat = 0 := by omega
  refine nearestIndex_eq_zero ?_
  rw [hexponent, hunits, hm, Nat.pow_zero, Nat.mul_one, Nat.pow_eq]
  calc
    2 * (digits * 2 ^ k) = digits * 2 ^ (k + 1) := by ring
    _ ≤ digits * 10 ^ m := Nat.mul_le_mul_left _ (two_pow_le_ten_pow (by omega))
    _ < 10 ^ (writeNat digits).length * 10 ^ m :=
      (Nat.mul_lt_mul_right (Nat.pow_pos (by decide))).2 (lt_pow_length_writeNat digits)
    _ = 10 ^ ((writeNat digits).length + m) := (Nat.pow_add _ _ _).symm

/-- From `10 ^ 310` on there is no finite magnitude. -/
theorem finiteCount_le_nearestIndex_of_top {digits : Nat} {exponent : Int} (hpos : 0 < digits)
    (h : 310 < (writeNat digits).length + exponent) :
    finiteCount ≤
      nearestIndex (digits * 10 ^ exponent.toNat * unitsPerOne) (10 ^ (-exponent).toNat) := by
  obtain ⟨k, hk, hunits⟩ := exists_unitsPerOne_eq
  obtain ⟨m, hm⟩ : ∃ m, (writeNat digits).length - 1 + exponent.toNat = m + (-exponent).toNat :=
    ⟨(writeNat digits).length - 1 + exponent.toNat - (-exponent).toNat, by omega⟩
  obtain ⟨j, hj⟩ : ∃ j, j = 1024 := ⟨1024, rfl⟩
  refine finiteCount_le_nearestIndex (k := j + k) (by omega) ?_
  rw [Nat.le_div_iff_mul_le (Nat.pow_pos (by decide)), hunits, Nat.pow_eq]
  calc
    2 ^ (j + k) * 10 ^ (-exponent).toNat = 2 ^ j * 10 ^ (-exponent).toNat * 2 ^ k := by
      rw [Nat.pow_add]
      ring
    _ ≤ 10 ^ m * 10 ^ (-exponent).toNat * 2 ^ k :=
      Nat.mul_le_mul_right _ (Nat.mul_le_mul_right _ (two_pow_le_ten_pow (by omega)))
    _ = 10 ^ ((writeNat digits).length - 1) * 10 ^ exponent.toNat * 2 ^ k := by
      rw [← Nat.pow_add, ← hm, Nat.pow_add]
    _ ≤ digits * 10 ^ exponent.toNat * 2 ^ k :=
      Nat.mul_le_mul_right _ (Nat.mul_le_mul_right _ (pow_length_writeNat_le hpos))

/-- The bounds at which a decimal is rounded without a power of ten decide nothing. -/
theorem ofDecimal_eq_ofUnits (negative : Bool) (digits : Nat) (exponent : Int) :
    ofDecimal negative digits exponent =
      ofUnits negative (digits * 10 ^ exponent.toNat * unitsPerOne) (10 ^ (-exponent).toNat) := by
  unfold ofDecimal
  dsimp only
  split
  · next hsmall =>
      have hzero : nearestIndex (digits * 10 ^ exponent.toNat * unitsPerOne)
          (10 ^ (-exponent).toNat) = 0 := by
        rcases hsmall with rfl | htop
        · exact nearestIndex_eq_zero (by simp)
        · exact nearestIndex_of_top_lt htop
      simp only [ofUnits, hzero]
      rw [dif_pos (by decide)]
      rfl
  · next hsmall =>
      split
      · next htop =>
          have hlarge := finiteCount_le_nearestIndex_of_top (by omega) htop
          rw [ofUnits, dif_neg (by omega)]
      · rfl

end Binary64
end GoCell
