import Mathlib.Data.List.Basic

/-!
The pieces of a text: a run of characters and what follows it, and texts that are
joined by a separator.
-/

namespace GoCell.Text

theorem takeWhile_append_of_head {α : Type} {p : α → Bool} {l r : List α} (hl : ∀ a ∈ l, p a)
    (hr : ∀ a ∈ r.head?, p a = false) : (l ++ r).takeWhile p = l := by
  rw [List.takeWhile_append_of_pos hl]
  cases r with
  | nil => simp
  | cons a r => simp [hr a rfl]

theorem dropWhile_append_of_head {α : Type} {p : α → Bool} {l r : List α} (hl : ∀ a ∈ l, p a)
    (hr : ∀ a ∈ r.head?, p a = false) : (l ++ r).dropWhile p = r := by
  rw [List.dropWhile_append_of_pos hl]
  cases r with
  | nil => simp
  | cons a r => simp [hr a rfl]

/-- Induction on a text piece by piece: the last piece holds no separator, and any other
ends at the first one. -/
@[elab_as_elim]
theorem pieceInduction {α : Type} {p : α → Bool} {motive : List α → Prop}
    (last : ∀ x, (∀ a ∈ x, p a = false) → motive x)
    (piece : ∀ x a r, (∀ b ∈ x, p b = false) → p a → motive r → motive (x ++ a :: r))
    (l : List α) : motive l := by
  have hrest : ∀ x, (∀ a ∈ x, p a = false) → motive (x ++ l) := by
    induction l with
    | nil =>
        intro x hx
        rw [List.append_nil]
        exact last x hx
    | cons a l ih =>
        intro x hx
        cases ha : p a with
        | true => exact piece x a l hx ha (ih [] (by simp))
        | false =>
            rw [List.append_cons]
            exact ih (x ++ [a]) (List.forall_mem_append.2 ⟨hx, by simpa using ha⟩)
  exact hrest [] (by simp)

@[elab_as_elim]
theorem splitInduction {α : Type} [DecidableEq α] (sep : α) {motive : List α → Prop}
    (last : ∀ x, sep ∉ x → motive x)
    (piece : ∀ x r, sep ∉ x → motive r → motive (x ++ sep :: r)) (l : List α) : motive l := by
  have hmem : ∀ x : List α, (∀ a ∈ x, decide (a = sep) = false) → sep ∉ x :=
    fun x hx hsep => absurd (hx sep hsep) (by simp)
  induction l using pieceInduction (p := fun a => decide (a = sep)) with
  | last x hx => exact last x (hmem x hx)
  | piece x a r hx ha ih =>
      obtain rfl := of_decide_eq_true ha
      exact piece x r (hmem x hx) ih

theorem length_le_length_intercalate {α : Type} (sep : α) (ls : List (List α)) :
    ls.length ≤ ([sep].intercalate ls).length + 1 := by
  induction ls with
  | nil => simp
  | cons l ls ih =>
      cases ls with
      | nil => simp
      | cons l' ls =>
          rw [List.intercalate_cons_cons]
          simp only [List.length_append, List.length_cons] at *
          omega

theorem intercalate_cons_eq {α : Type} (sep : List α) (l : List α) (ls : List (List α)) :
    sep.intercalate (l :: ls) = l ++ ls.flatMap (sep ++ ·) := by
  induction ls generalizing l with
  | nil => simp
  | cons l' ls ih =>
      rw [List.intercalate_cons_cons, ih, List.flatMap_cons]
      simp

/-- What holds in every piece and in the separator holds in the whole text. -/
theorem forall_mem_intercalate {α : Type} {P : α → Prop} {sep : List α} (hsep : ∀ a ∈ sep, P a)
    {ls : List (List α)} : (∀ a ∈ sep.intercalate ls, P a) ↔ ∀ l ∈ ls, ∀ a ∈ l, P a := by
  cases ls with
  | nil => simp
  | cons l ls =>
      have hrest : (∀ a ∈ ls.flatMap (sep ++ ·), P a) ↔ ∀ l ∈ ls, ∀ a ∈ l, P a := by
        simp only [List.forall_mem_flatMap, List.forall_mem_append, and_iff_right hsep]
      rw [intercalate_cons_eq, List.forall_mem_append, List.forall_mem_cons, hrest]

/-- A text of pieces ends as the last one does, or in the separator. -/
theorem getLast?_intercalate_ne {α : Type} {sep a : α} (hsep : sep ≠ a) {ls : List (List α)}
    (h : ∀ l ∈ ls, l.getLast? ≠ some a) : ([sep].intercalate ls).getLast? ≠ some a := by
  induction ls with
  | nil => simp
  | cons l ls ih =>
      obtain ⟨hl, hls⟩ := List.forall_mem_cons.1 h
      cases ls with
      | nil => simpa using hl
      | cons l' ls =>
          rw [List.intercalate_cons_cons, List.getLast?_append]
          cases hlast : ([sep].intercalate (l' :: ls)).getLast? with
          | none => simpa using hsep
          | some c => simpa [hlast] using ih hls

end GoCell.Text
