import GoCell.Proofs.Text.Piece
import GoCell.Proofs.Text.Search
import Mathlib.Algebra.BigOperators.Group.List.Basic
import Mathlib.Algebra.GroupWithZero.Nat

/-!
Counting a pattern in a text. A pattern whose first character does not come again in it cannot
overlap itself, so counting from the left without overlap finds every place where it stands.
The places of a text are those of the pieces that it is cut into at a character which the
pattern does not have.
-/

namespace GoCell.Text

/-- At how many places of a text a pattern stands. -/
def places (pattern : List Char) : List Char → Nat
  | [] => 0
  | c :: r => (if pattern <+: c :: r then 1 else 0) + places pattern r

@[simp] theorem places_nil (pattern : List Char) : places pattern [] = 0 := rfl

variable {a : Char} {p : List Char}

theorem places_cons_of_ne {c : Char} (h : a ≠ c) (r : List Char) :
    places (a :: p) (c :: r) = places (a :: p) r := by
  have hnot : ¬ a :: p <+: c :: r := fun hstarts => h (List.cons_prefix_cons.1 hstarts).1
  rw [places, if_neg hnot, Nat.zero_add]

/-- Where the first character does not stand the pattern does not either. -/
theorem places_append_of_not_mem {s : List Char} (h : a ∉ s) (r : List Char) :
    places (a :: p) (s ++ r) = places (a :: p) r := by
  induction s with
  | nil => rfl
  | cons c s ih =>
      rw [List.mem_cons, not_or] at h
      rw [List.cons_append, places_cons_of_ne h.1, ih h.2]

theorem places_eq_zero_iff {l : List Char} : places (a :: p) l = 0 ↔ ¬ a :: p <:+: l := by
  induction l with
  | nil => simp
  | cons c r ih =>
      rw [places, Nat.add_eq_zero_iff, ih, List.infix_cons_iff, not_or]
      simp

theorem places_eq_zero_of_not_mem {c : Char} (hpattern : c ∈ a :: p) {l : List Char} (h : c ∉ l) :
    places (a :: p) l = 0 :=
  places_eq_zero_iff.2 fun hoccurs => h (hoccurs.subset hpattern)

/-! ### Counting without overlap -/

theorem places_eq_zero_of_after? {l : List Char} (h : after? (a :: p) l = none) :
    places (a :: p) l = 0 := by
  induction l with
  | nil => rfl
  | cons c r ih =>
      rw [after?] at h
      split at h
      · cases h
      · next hnone => rw [places, if_neg (isPrefixOf?_eq_none_iff.1 hnone), ih h]

theorem places_of_after? (ha : a ∉ p) {l rest : List Char} (h : after? (a :: p) l = some rest) :
    places (a :: p) l = places (a :: p) rest + 1 := by
  induction l with
  | nil => cases h
  | cons c r ih =>
      rw [after?] at h
      split at h
      · next hstarts =>
        cases h
        have hl := List.isPrefixOf?_eq_some_iff_append_eq.1 hstarts
        rw [List.cons_append, List.cons.injEq] at hl
        obtain ⟨rfl, rfl⟩ := hl
        -- inside of the pattern it does not begin again
        have hplace : a :: p <+: a :: (p ++ rest) := List.prefix_append (a :: p) rest
        rw [places, if_pos hplace, Nat.add_comm, places_append_of_not_mem ha]
      · next hnone =>
        rw [places, if_neg (isPrefixOf?_eq_none_iff.1 hnone), Nat.zero_add, ih h]

theorem occurrences_eq_places (ha : a ∉ p) (l : List Char) :
    occurrences (a :: p) l = places (a :: p) l := by
  suffices ∀ bound, l.length ≤ bound → occurrencesWithin (a :: p) bound l = places (a :: p) l from
    this l.length (Nat.le_refl _)
  intro bound hbound
  induction bound generalizing l with
  | zero =>
      rw [List.length_eq_zero_iff.1 (Nat.le_zero.1 hbound)]
      rfl
  | succ bound ih =>
      rw [occurrencesWithin]
      split
      · next rest hafter =>
        obtain ⟨s, rfl⟩ := exists_append_of_after? hafter
        have hrest : rest.length ≤ bound := by
          simp only [List.length_append, List.length_cons] at hbound
          omega
        rw [ih rest hrest, places_of_after? ha hafter]
      · next hafter => rw [places_eq_zero_of_after? hafter]

/-! ### Pieces -/

/-- A pattern stands on one side of a character that it does not have. -/
theorem places_append_cons {c : Char} (h : c ∉ a :: p) (x y : List Char) :
    places (a :: p) (x ++ c :: y) = places (a :: p) x + places (a :: p) y := by
  induction x with
  | nil =>
      rw [List.nil_append, places_cons_of_ne (List.ne_of_not_mem_cons h).symm, places_nil,
        Nat.zero_add]
  | cons d x ih =>
      have hstarts := prefix_append_cons_iff h (d :: x) y
      rw [List.cons_append] at hstarts
      rw [List.cons_append, places, places, ih, Nat.add_assoc]
      simp only [hstarts]

theorem places_flatMap_append {α : Type} {c : Char} (h : c ∉ a :: p) (f : α → List Char)
    (l : List α) :
    places (a :: p) (l.flatMap fun x => f x ++ [c]) = (l.map fun x => places (a :: p) (f x)).sum := by
  induction l with
  | nil => rfl
  | cons x l ih =>
      rw [List.flatMap_cons, List.append_assoc, List.singleton_append, places_append_cons h, ih,
        List.map_cons, List.sum_cons]

theorem places_intercalate {c : Char} (h : c ∉ a :: p) (ls : List (List Char)) :
    places (a :: p) ([c].intercalate ls) = (ls.map (places (a :: p))).sum := by
  induction ls with
  | nil => rfl
  | cons l ls ih =>
      cases ls with
      | nil => simp
      | cons l' ls =>
          rw [List.intercalate_cons_cons, List.append_assoc, List.singleton_append,
            places_append_cons h, ih]
          rfl

/-- Whether a text keeps its places where each character is spelled like this: a character
that the pattern has stands for itself, and the others may begin with another character that
it does not have, and go on without the first one of the pattern. -/
def SpellsAround (a : Char) (p : List Char) (spell : Char → List Char) : Prop :=
  ∀ c, spell c = [c] ∨ c ∉ a :: p ∧ ∃ e t, spell c = e :: t ∧ e ∉ a :: p ∧ a ∉ t

theorem prefix_flatMap_iff {pattern : List Char} {spell : Char → List Char}
    (h : ∀ c, spell c = [c] ∨ c ∉ pattern ∧ ∃ e t, spell c = e :: t ∧ e ∉ pattern)
    (l : List Char) : pattern <+: l.flatMap spell ↔ pattern <+: l := by
  induction pattern generalizing l with
  | nil => simp
  | cons d pattern ih =>
      have htail : ∀ c, spell c = [c] ∨ c ∉ pattern ∧ ∃ e t, spell c = e :: t ∧ e ∉ pattern := by
        intro c
        refine (h c).imp_right ?_
        rintro ⟨hc, e, t, hspell, he⟩
        exact ⟨fun hmem => hc (List.mem_cons_of_mem _ hmem), e, t, hspell,
          fun hmem => he (List.mem_cons_of_mem _ hmem)⟩
      cases l with
      | nil => simp
      | cons c l =>
          rw [List.flatMap_cons, List.cons_prefix_cons]
          rcases h c with hspell | ⟨hc, e, t, hspell, he⟩
          · rw [hspell, List.singleton_append, List.cons_prefix_cons, ih htail]
          · rw [hspell, List.cons_append, List.cons_prefix_cons]
            exact ⟨fun hstarts => absurd hstarts.1 (List.ne_of_not_mem_cons he).symm,
              fun hstarts => absurd hstarts.1 (List.ne_of_not_mem_cons hc).symm⟩

theorem places_flatMap_spell {spell : Char → List Char} (h : SpellsAround a p spell)
    (l : List Char) : places (a :: p) (l.flatMap spell) = places (a :: p) l := by
  induction l with
  | nil => rfl
  | cons c l ih =>
      have hstarts : a :: p <+: (c :: l).flatMap spell ↔ a :: p <+: c :: l := by
        refine prefix_flatMap_iff (fun d => (h d).imp_right ?_) (c :: l)
        rintro ⟨hd, e, t, hspell, he, -⟩
        exact ⟨hd, e, t, hspell, he⟩
      rcases h c with hspell | ⟨hc, e, t, hspell, he, ht⟩
      · rw [List.flatMap_cons, hspell, List.singleton_append] at hstarts
        rw [List.flatMap_cons, hspell, List.singleton_append, places, places, ih]
        simp only [hstarts]
      · have hnot : a ∉ e :: t := by
          rw [List.mem_cons, not_or]
          exact ⟨(List.ne_of_not_mem_cons he).symm, ht⟩
        rw [List.flatMap_cons, hspell, places_append_of_not_mem hnot, ih,
          places_cons_of_ne (List.ne_of_not_mem_cons hc).symm]

/-- A pattern stands once at the end of a text that lacks one of its characters before. -/
theorem places_append_self (ha : a ∉ p) {c : Char} (hc : c ∈ p) {u : List Char} (hu : c ∉ u) :
    places (a :: p) (u ++ a :: p) = 1 := by
  induction u with
  | nil =>
      have hrest := places_append_of_not_mem (p := p) ha []
      rw [List.append_nil, places_nil] at hrest
      rw [List.nil_append, places, if_pos (List.prefix_refl _), hrest]
  | cons d u ih =>
      have hnot : ¬ a :: p <+: d :: u ++ a :: p := by
        rintro ⟨r, hr⟩
        -- the first `c` would stand at two places
        have hmem : c ∈ a :: p := List.mem_cons_of_mem a hc
        have hfirst := congrArg (List.idxOf c) hr
        rw [List.idxOf_append_of_mem hmem, List.idxOf_append_of_notMem hu, List.length_cons] at hfirst
        omega
      rw [List.cons_append] at hnot
      rw [List.cons_append, places, if_neg hnot, ih fun hmem => hu (List.mem_cons_of_mem d hmem)]

end GoCell.Text
