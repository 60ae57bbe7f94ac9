import GoCell.Proofs.Number.FixedPoint

/-!
The integer nearest to a rational, the even one of two that are equally near. There is
always one, no other integer is nearer, and it grows with the rational; so a bound that is
an integer holds after rounding as it did before.
-/

namespace GoCell

theorem nearestEven_intCast (m : ℤ) : NearestEven (m : ℚ) m := by
  constructor <;> simp

theorem exists_nearestEven (x : ℚ) : ∃ m, NearestEven x m := by
  have hnum (n : ℕ) : ∃ m, NearestEven ((n : ℚ) / x.den) m :=
    ⟨_, nearestEven_roundDiv n x.den_pos⟩
  obtain ⟨n, hn | hn⟩ := x.num.eq_nat_or_neg
  · have hx : x = (n : ℚ) / x.den := by
      conv_lhs => rw [← Rat.num_div_den x, hn, Int.cast_natCast]
    exact hx ▸ hnum n
  · have hx : x = -((n : ℚ) / x.den) := by
      conv_lhs => rw [← Rat.num_div_den x, hn, Int.cast_neg, Int.cast_natCast, neg_div]
    obtain ⟨m, hm⟩ := hnum n
    exact ⟨-m, hx ▸ hm.neg⟩

namespace NearestEven

variable {x y : ℚ} {m n : ℤ}

/-- Distinct integers are at least one apart. -/
theorem one_le_abs_sub (h : m ≠ n) : (1 : ℚ) ≤ |(m : ℚ) - n| := by
  have hint : 1 ≤ |m - n| := Int.one_le_abs (sub_ne_zero.2 h)
  exact_mod_cast hint

/-- Another integer is at least half a unit away. -/
theorem half_le_abs_sub (h : NearestEven x m) (hne : n ≠ m) : 1 / 2 ≤ |x - n| := by
  have hapart := one_le_abs_sub hne
  have htriangle := abs_sub_le (n : ℚ) x m
  rw [abs_sub_comm (n : ℚ) x] at htriangle
  linarith [h.near]

/-- No integer is nearer. -/
theorem abs_sub_le (h : NearestEven x m) (n : ℤ) : |x - m| ≤ |x - n| := by
  by_cases hne : n = m
  · rw [hne]
  · exact h.near.trans (h.half_le_abs_sub hne)

theorem even_of_abs_sub_eq (h : NearestEven x m) (hne : n ≠ m) (heq : |x - n| = |x - m|) :
    Even m :=
  h.even_of_tie (h.near.antisymm (heq ▸ h.half_le_abs_sub hne))

/-- Rounding keeps the order. Of two integers that are one apart, only one is even, so they
are not both nearest to a point halfway between them. -/
theorem mono (hx : NearestEven x m) (hy : NearestEven y n) (h : x ≤ y) : m ≤ n := by
  by_contra hlt
  have hstep : n + 1 ≤ m := by omega
  have hstep' : (n : ℚ) + 1 ≤ m := by exact_mod_cast hstep
  have hlow := (abs_le.1 hx.near).1
  have hhigh := (abs_le.1 hy.near).2
  have hm : |x - m| = 1 / 2 := by
    rw [abs_eq (by norm_num)]
    right
    linarith
  have hn : |y - n| = 1 / 2 := by
    rw [abs_eq (by norm_num)]
    left
    linarith
  have hnext : m = n + 1 := by
    have hrat : (m : ℚ) ≤ n + 1 := by linarith
    have hint : m ≤ n + 1 := by exact_mod_cast hrat
    omega
  have heven := hx.even_of_tie hm
  rw [hnext, Int.even_add_one] at heven
  exact heven (hy.even_of_tie hn)

theorem abs (h : NearestEven x m) : NearestEven |x| |m| := by
  rcases le_total 0 x with hx | hx
  · have hm : 0 ≤ m := mono (nearestEven_intCast 0) h (by exact_mod_cast hx)
    rwa [abs_of_nonneg hx, abs_of_nonneg hm]
  · have hm : m ≤ 0 := mono h (nearestEven_intCast 0) (by exact_mod_cast hx)
    rw [abs_of_nonpos hx, abs_of_nonpos hm]
    exact h.neg

theorem le_abs (h : NearestEven x m) (hx : (n : ℚ) ≤ |x|) : n ≤ |m| :=
  mono (nearestEven_intCast n) h.abs hx

theorem abs_le (h : NearestEven x m) (hx : |x| ≤ n) : |m| ≤ n :=
  mono h.abs (nearestEven_intCast n) hx

end NearestEven

end GoCell
