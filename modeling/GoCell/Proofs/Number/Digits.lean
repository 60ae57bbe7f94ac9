import GoCell.Number.Fixed
import Mathlib.Algebra.Group.Nat.Defs

/-!
Decimal digits: how many there are, and what they read back as where zeros stand
before or behind them, or a point between them.
-/

namespace GoCell

theorem readDigits_append (a b : List Char) :
    readDigits (a ++ b) = readDigits a * 10 ^ b.length + readDigits b := by
  rw [readDigits, Nat.ofDigitChars_append, Nat.ofDigitChars_eq_ofDigitChars_zero, Nat.mul_comm]
  rfl

theorem readDigits_replicate_zero (n : Nat) : readDigits (List.replicate n '0') = 0 := by
  rw [readDigits, Nat.ofDigitChars_replicate_zero, Nat.mul_zero]

theorem readDigits_zeros_append (n : Nat) (ds : List Char) :
    readDigits (List.replicate n '0' ++ ds) = readDigits ds := by
  rw [readDigits_append, readDigits_replicate_zero, Nat.zero_mul, Nat.zero_add]

theorem readDigits_append_zeros (ds : List Char) (n : Nat) :
    readDigits (ds ++ List.replicate n '0') = readDigits ds * 10 ^ n := by
  rw [readDigits_append, readDigits_replicate_zero, List.length_replicate, Nat.add_zero]

theorem isDigit_of_mem_zeros {n : Nat} {c : Char} (h : c ∈ List.replicate n '0') : c.isDigit := by
  rw [List.eq_of_mem_replicate h]
  rfl

/-- Only zero is written with a leading zero. -/
theorem eq_zero_of_head?_writeNat {n : Nat} (h : (writeNat n).head? = some '0') : n = 0 := by
  induction n using Nat.strongRecOn with
  | ind n ih =>
      rw [writeNat, Nat.toDigits_eq_if (by decide)] at h
      split at h
      · simpa using h
      · next hlarge =>
          rw [List.head?_append, Option.or_of_isSome (by simp)] at h
          have hquotient : n / 10 = 0 := ih (n / 10) (by omega) h
          omega

theorem length_writeNat_pos (n : Nat) : 0 < (writeNat n).length :=
  List.length_pos_iff.2 (writeNat_ne_nil n)

theorem lt_pow_length_writeNat (n : Nat) : n < 10 ^ (writeNat n).length :=
  (Nat.length_toDigits_le_iff (by decide) (length_writeNat_pos n)).1 (Nat.le_refl _)

theorem pow_length_writeNat_le {n : Nat} (h : 0 < n) : 10 ^ ((writeNat n).length - 1) ≤ n := by
  rcases Nat.eq_zero_or_pos ((writeNat n).length - 1) with hzero | hpos
  · rw [hzero]
    exact h
  · refine Nat.le_of_not_lt fun hlt => ?_
    have hle : (writeNat n).length ≤ (writeNat n).length - 1 :=
      (Nat.length_toDigits_le_iff (by decide) hpos).2 hlt
    omega

theorem isDigit_of_mem_padNat {width n : Nat} {c : Char} (h : c ∈ padNat width n) :
    c.isDigit := by
  rcases List.mem_append.1 h with h | h
  · exact isDigit_of_mem_zeros h
  · exact isDigit_of_mem_writeNat h

@[simp] theorem readDigits_padNat (width n : Nat) : readDigits (padNat width n) = n := by
  rw [padNat, readDigits_zeros_append, readDigits_writeNat]

theorem length_padNat {width n : Nat} (hwidth : 0 < width) (h : n < 10 ^ width) :
    (padNat width n).length = width := by
  have hle : (writeNat n).length ≤ width :=
    (Nat.length_toDigits_le_iff (by decide) hwidth).2 h
  simp only [padNat, List.length_append, List.length_replicate]
  omega

/-- The digits around the point of a multiple of `10 ^ -places`, without the point. -/
theorem readDigits_whole_append_fraction {places : Nat} (hplaces : 0 < places) (n : Nat) :
    readDigits (writeNat (n / 10 ^ places) ++ padNat places (n % 10 ^ places)) = n := by
  have hlt : n % 10 ^ places < 10 ^ places := Nat.mod_lt _ (Nat.pow_pos (by decide))
  rw [readDigits_append, length_padNat hplaces hlt, readDigits_writeNat, readDigits_padNat]
  exact Nat.div_add_mod' n (10 ^ places)

end GoCell
