/-!
Rounding a quotient of natural numbers to a natural number. The result is
within half a unit of the quotient; a quotient halfway between two numbers goes
where the tie rule says.
-/

namespace GoCell

/-- What becomes of a point halfway between two neighbours. -/
inductive Tie
  | even
  | up
  deriving DecidableEq

/-- The natural number nearest to `num / den`. -/
def roundDiv (tie : Tie) (num den : Nat) : Nat :=
  let q := num / den
  let twice := 2 * (num % den)
  if twice < den then q
  else if den < twice then q + 1
  else match tie with
    | .even => q + q % 2
    | .up => q + 1

theorem roundDiv_eq_or (tie : Tie) (num den : Nat) :
    roundDiv tie num den = num / den ∨ roundDiv tie num den = num / den + 1 := by
  unfold roundDiv
  dsimp only
  split
  · exact .inl rfl
  · split
    · exact .inr rfl
    · cases tie with
      | even =>
        have := Nat.mod_two_eq_zero_or_one (num / den)
        dsimp only
        omega
      | up => exact .inr rfl

theorem roundDiv_mul_self (tie : Tie) (q : Nat) {den : Nat} (h : 0 < den) :
    roundDiv tie (q * den) den = q := by
  simp [roundDiv, h]

/-- The distance to the quotient, times `2 * den`, is at most `den`. -/
theorem two_mul_roundDiv_mul_le (tie : Tie) (num : Nat) {den : Nat} (h : 0 < den) :
    2 * (roundDiv tie num den * den) ≤ 2 * num + den ∧
      2 * num ≤ 2 * (roundDiv tie num den * den) + den := by
  have hsplit := Nat.div_add_mod' num den
  have hlt := Nat.mod_lt num h
  rcases roundDiv_eq_or tie num den with hq | hq <;> rw [hq]
  · have : 2 * (num % den) ≤ den := by
      unfold roundDiv at hq
      dsimp only at hq
      split at hq
      · omega
      · split at hq
        · omega
        · omega
    omega
  · have : den ≤ 2 * (num % den) := by
      unfold roundDiv at hq
      dsimp only at hq
      split at hq
      · omega
      · omega
    rw [Nat.add_mul]
    omega

end GoCell
