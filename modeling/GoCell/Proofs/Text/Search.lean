import GoCell.Text.Search
import Mathlib.Data.List.Basic

/-!
What finding a fixed text in a text says about the text.
-/

namespace GoCell.Text

theorem isPrefixOf?_pair (a b c d : Char) (r : List Char) :
    [a, b].isPrefixOf? (c :: d :: r) = if c = a ∧ d = b then some r else none := by
  simp only [List.isPrefixOf?, beq_iff_eq]
  by_cases hc : a = c
  · by_cases hd : b = d
    · simp [hc, hd]
    · simp [hc, hd, Ne.symm hd]
  · simp [hc, Ne.symm hc]

theorem after?_pair (a b c d : Char) (r : List Char) :
    after? [a, b] (c :: d :: r) =
      if c = a ∧ d = b then some r else after? [a, b] (d :: r) := by
  rw [after?, isPrefixOf?_pair]
  split <;> simp_all

/-- What is found stands in the text, before what follows it. -/
theorem exists_append_of_after? {pattern l rest : List Char}
    (h : after? pattern l = some rest) : ∃ s, l = s ++ pattern ++ rest := by
  induction l with
  | nil =>
      have := List.isPrefixOf?_eq_some_iff_append_eq.1 h
      exact ⟨[], by simpa using this.symm⟩
  | cons c l ih =>
      rw [after?] at h
      split at h
      · next hstarts =>
        cases h
        have := List.isPrefixOf?_eq_some_iff_append_eq.1 hstarts
        exact ⟨[], by simpa using this.symm⟩
      · obtain ⟨s, rfl⟩ := ih h
        exact ⟨c :: s, rfl⟩

/-- A pattern does not reach over a character that it does not have. -/
theorem prefix_append_cons_iff {pattern : List Char} {c : Char} (h : c ∉ pattern)
    (x y : List Char) : pattern <+: x ++ c :: y ↔ pattern <+: x := by
  refine ⟨fun hstarts => ?_, fun hstarts => hstarts.trans (List.prefix_append x _)⟩
  rcases List.prefix_or_prefix_of_prefix hstarts (List.prefix_append x _) with hx | ⟨t, rfl⟩
  · exact hx
  · rw [List.prefix_append_right_inj] at hstarts
    cases t with
    | nil => exact ⟨[], by simp⟩
    | cons d t =>
        rw [(List.cons_prefix_cons.1 hstarts).1] at h
        simp at h

theorem isPrefixOf?_eq_none_iff {pattern l : List Char} :
    pattern.isPrefixOf? l = none ↔ ¬ pattern <+: l := by
  rw [Option.eq_none_iff_forall_ne_some]
  constructor
  · rintro h ⟨r, hr⟩
    exact h r (List.isPrefixOf?_eq_some_iff_append_eq.2 hr)
  · intro h r hr
    exact h ⟨r, List.isPrefixOf?_eq_some_iff_append_eq.1 hr⟩

theorem isPrefixOf?_append_cons {pattern : List Char} {c : Char} (h : c ∉ pattern)
    (x y : List Char) :
    pattern.isPrefixOf? (x ++ c :: y) = (pattern.isPrefixOf? x).map (· ++ c :: y) := by
  refine Option.ext fun rest => ?_
  rw [Option.map_eq_some_iff, List.isPrefixOf?_eq_some_iff_append_eq]
  constructor
  · intro heq
    obtain ⟨r, rfl⟩ := (prefix_append_cons_iff h x y).1 ⟨rest, heq⟩
    rw [List.append_assoc] at heq
    exact ⟨r, List.isPrefixOf?_eq_some_iff_append_eq.2 rfl, (List.append_cancel_left heq).symm⟩
  · rintro ⟨r, hr, rfl⟩
    rw [← List.isPrefixOf?_eq_some_iff_append_eq.1 hr, List.append_assoc]

/-! ### The last occurrence -/

section Last

variable {a : Char} {p : List Char}

theorem afterLast?_cons_of_ne {c : Char} (h : a ≠ c) (r : List Char) :
    afterLast? (a :: p) (c :: r) = afterLast? (a :: p) r := by
  have hnone : (a :: p).isPrefixOf? (c :: r) = none := by
    simp [List.isPrefixOf?, h]
  rw [afterLast?, hnone]
  cases afterLast? (a :: p) r <;> rfl

/-- What stands before the first character of a pattern is passed over. -/
theorem afterLast?_append_of_not_mem {s : List Char} (h : a ∉ s) (r : List Char) :
    afterLast? (a :: p) (s ++ r) = afterLast? (a :: p) r := by
  induction s with
  | nil => rfl
  | cons c s ih =>
      rw [List.mem_cons, not_or] at h
      rw [List.cons_append, afterLast?_cons_of_ne h.1, ih h.2]

theorem afterLast?_of_not_mem {l : List Char} (h : a ∉ l) : afterLast? (a :: p) l = none := by
  have hnil := afterLast?_append_of_not_mem (p := p) h []
  rwa [List.append_nil] at hnil

/-- A pattern stands last after a character that it does not have, or else before it. -/
theorem afterLast?_append_cons {c : Char} (h : c ∉ a :: p) (x y : List Char) :
    afterLast? (a :: p) (x ++ c :: y) =
      (afterLast? (a :: p) y).or ((afterLast? (a :: p) x).map (· ++ c :: y)) := by
  induction x with
  | nil =>
      rw [List.nil_append, afterLast?_cons_of_ne (List.ne_of_not_mem_cons h).symm,
        afterLast?_of_not_mem List.not_mem_nil, Option.map_none, Option.or_none]
  | cons d x ih =>
      have hstarts := isPrefixOf?_append_cons h (d :: x) y
      rw [List.cons_append] at hstarts
      rw [List.cons_append, afterLast?, afterLast?, ih, hstarts]
      cases afterLast? (a :: p) y with
      | some rest => rfl
      | none => cases afterLast? (a :: p) x <;> rfl

theorem afterLast?_append_of_forall {blanks : List Char} (h : ∀ c ∈ blanks, c ∉ a :: p)
    (l : List Char) :
    afterLast? (a :: p) (l ++ blanks) = (afterLast? (a :: p) l).map (· ++ blanks) := by
  cases blanks with
  | nil => simp
  | cons c blanks =>
      rw [List.forall_mem_cons] at h
      have hnone : a ∉ blanks := fun hmem => h.2 a hmem List.mem_cons_self
      rw [afterLast?_append_cons h.1, afterLast?_of_not_mem hnone, Option.none_or]

theorem afterLast?_eq_none_iff {pattern l : List Char} :
    afterLast? pattern l = none ↔ ¬ pattern <:+: l := by
  induction l with
  | nil => rw [afterLast?, isPrefixOf?_eq_none_iff, List.prefix_nil, List.infix_nil]
  | cons c l ih =>
      have hcons : afterLast? pattern (c :: l) = none ↔
          pattern.isPrefixOf? (c :: l) = none ∧ afterLast? pattern l = none := by
        rw [afterLast?]
        cases afterLast? pattern l <;> simp
      rw [hcons, List.infix_cons_iff, not_or]
      exact and_congr isPrefixOf?_eq_none_iff ih

end Last

end GoCell.Text
