import GoCell.Proofs.Number.NearestIndex

/-!
The shortest decimal of a double reads back as that double, whatever the number of
digits it is found with.
-/

namespace GoCell.Binary64

theorem readsBack_iff {index : Nat} {d : Decimal} :
    readsBack index d ↔
      nearestIndex (d.digits * 10 ^ d.exponent.toNat * unitsPerOne) (10 ^ (-d.exponent).toNat) =
        index := by
  simp [readsBack]

/-- On a grid the nearer neighbour is one of the two that were tried. -/
theorem readsBack_of_gridDecimal? {tie : Tie} {index : Nat} {exponent : Int} {d : Decimal}
    (h : gridDecimal? tie index exponent = some d) : readsBack index d := by
  unfold gridDecimal? at h
  dsimp only at h
  split at h
  · next hbelow =>
      split at h
      · next habove =>
          rw [← Option.some.inj h]
          exact roundDiv_of_neighbours (P := fun q => readsBack index ⟨q, exponent⟩) hbelow habove
      · exact Option.some.inj h ▸ hbelow
  · split at h
    · next habove => exact Option.some.inj h ▸ habove
    · cases h

/-- A unit is a whole number of `10 ^ -1074`, so the exact value has a decimal. -/
theorem readsBack_exactDecimal (index : Nat) : readsBack index (exactDecimal index) := by
  obtain ⟨k, hk, hunits⟩ := exists_unitsPerOne_eq
  have hexact : exactDecimal index = ⟨units index * Nat.pow 5 k, -(k : Int)⟩ := by
    rw [hk]
    rfl
  have hten : (10 : Nat) ^ k = 1 * (5 ^ k * 2 ^ k) := by
    rw [Nat.one_mul, ← Nat.mul_pow]
  rw [readsBack_iff, hexact]
  simp only [Int.neg_neg, Int.toNat_natCast, Int.toNat_neg_natCast, Nat.pow_zero, Nat.mul_one]
  rw [hunits, hten, Nat.pow_eq, Nat.pow_eq, Nat.mul_assoc,
    nearestIndex_mul_mul _ _ (Nat.mul_pos (Nat.pow_pos (by decide)) (Nat.two_pow_pos k)),
    nearestIndex_units]

theorem readsBack_shortest (tie : Tie) (index : Nat) : readsBack index (shortest tie index) := by
  unfold shortest
  dsimp only
  cases hsearch : (List.range 17).findSome? fun n : Nat =>
      gridDecimal? tie index (pointPosition index - (n + 1 : Nat)) with
  | none => exact readsBack_exactDecimal index
  | some d =>
      obtain ⟨n, -, hgrid⟩ := List.exists_of_findSome?_eq_some hsearch
      exact readsBack_of_gridDecimal? hgrid

theorem digits_pos_of_readsBack {index : Nat} {d : Decimal} (hindex : 0 < index)
    (h : readsBack index d) : 0 < d.digits := by
  by_contra hzero
  have hdigits : d.digits = 0 := by omega
  rw [readsBack_iff, hdigits, nearestIndex_eq_zero (by simp)] at h
  omega

/-- The double that a decimal is read as. -/
theorem ofDecimal_of_readsBack {index : Fin finiteCount} {d : Decimal} (h : readsBack index d)
    (negative : Bool) : ofDecimal negative d.digits d.exponent = .finite negative index := by
  rw [ofDecimal_eq_ofUnits, ofUnits]
  simp only [readsBack_iff.1 h, index.isLt, dite_true]

end GoCell.Binary64
