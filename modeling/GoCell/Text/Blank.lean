/-!
Blank characters (the Unicode property White_Space) and what is cut at them:
trimming, and the words of a text.
-/

namespace GoCell.Text

/-- The twenty-five characters with the property White_Space. -/
def isBlank (c : Char) : Bool :=
  let n := c.toNat
  (9 ≤ n && n ≤ 13) || n == 0x20 || n == 0x85 || n == 0xa0 || n == 0x1680 ||
    (0x2000 ≤ n && n ≤ 0x200a) || n == 0x2028 || n == 0x2029 || n == 0x202f ||
    n == 0x205f || n == 0x3000

theorem isBlank_of_isWhitespace {c : Char} (h : c.isWhitespace) : isBlank c := by
  simp only [Char.isWhitespace, Bool.or_eq_true, decide_eq_true_eq] at h
  rcases h with ((rfl | rfl) | rfl) | rfl <;> decide

/-- A list without its longest suffix of elements that satisfy `p`. -/
def dropEndWhile {α : Type} (p : α → Bool) (l : List α) : List α :=
  (l.reverse.dropWhile p).reverse

@[simp] theorem dropEndWhile_nil {α : Type} (p : α → Bool) : dropEndWhile p [] = [] := rfl

theorem dropEndWhile_append_of_all {α : Type} {p : α → Bool} (l : List α) {t : List α}
    (h : ∀ a ∈ t, p a) : dropEndWhile p (l ++ t) = dropEndWhile p l := by
  simp only [dropEndWhile, List.reverse_append]
  rw [List.dropWhile_append_of_pos]
  simpa using h

theorem dropEndWhile_append_cons_of_neg {α : Type} {p : α → Bool} (l : List α) {a : α}
    (t : List α) (h : p a = false) :
    dropEndWhile p (l ++ a :: t) = l ++ a :: dropEndWhile p t := by
  simp only [dropEndWhile, List.reverse_append, List.reverse_cons, List.append_assoc]
  rw [List.dropWhile_append]
  split
  · next hempty =>
    rw [List.isEmpty_iff] at hempty
    simp [hempty, h]
  · simp

/-- What is dropped is a suffix on which `p` holds. -/
theorem exists_dropEndWhile_append {α : Type} (p : α → Bool) (l : List α) :
    ∃ t, l = dropEndWhile p l ++ t ∧ ∀ a ∈ t, p a := by
  refine ⟨(l.reverse.takeWhile p).reverse, ?_, ?_⟩
  · rw [dropEndWhile, ← List.reverse_append, List.takeWhile_append_dropWhile,
      List.reverse_reverse]
  · intro a ha
    exact List.all_eq_true.1 List.all_takeWhile a (List.mem_reverse.1 ha)

/-- A text without the blanks at its two ends. -/
def trim (l : List Char) : List Char :=
  dropEndWhile isBlank (l.dropWhile isBlank)

/-- The maximal runs of characters that are not blank. -/
def words (l : List Char) : List (List Char) :=
  (l.splitOnP isBlank).filter (!·.isEmpty)

end GoCell.Text
