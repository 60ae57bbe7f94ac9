import GoCell.Proofs.Text.Piece
import GoCell.Text.Blank
import Mathlib.Data.List.DropRight
import Mathlib.Data.List.TakeWhile

/-!
Trimming and cutting at blanks. Trimming leaves nothing of a blank text and all of a text
without blanks at its ends; the words of a text are found piece by piece.
-/

namespace GoCell.Text

theorem isBlank_of_isDigit {c : Char} (h : c.isDigit) : isBlank c = false := by
  obtain ⟨hlow, hhigh⟩ := Char.isDigit_iff_toNat.1 h
  have hzero : '0'.toNat = 48 := rfl
  have hnine : '9'.toNat = 57 := rfl
  simp only [isBlank, Bool.or_eq_false_iff, Bool.and_eq_false_iff, decide_eq_false_iff_not,
    beq_eq_false_iff_ne]
  omega

/-! ### Trimming -/

theorem dropEndWhile_eq_nil_iff {α : Type} {p : α → Bool} {l : List α} :
    dropEndWhile p l = [] ↔ ∀ a ∈ l, p a := by
  simp [dropEndWhile]

theorem dropEndWhile_eq_self {α : Type} {p : α → Bool} {l : List α}
    (h : ∀ a ∈ l.getLast?, p a = false) : dropEndWhile p l = l := by
  rcases List.eq_nil_or_concat' l with rfl | ⟨x, a, rfl⟩
  · rfl
  · exact dropEndWhile_append_cons_of_neg x [] (h a (by simp))

/-- What is left ends in an element that would be kept. -/
theorem of_mem_getLast?_dropEndWhile {α : Type} {p : α → Bool} {l : List α} {a : α}
    (h : a ∈ (dropEndWhile p l).getLast?) : p a = false := by
  rw [dropEndWhile, List.getLast?_reverse] at h
  have hhead := List.head?_dropWhile_not p l.reverse
  rw [Option.mem_def.1 h] at hhead
  simpa using hhead

theorem isBlank_of_mem_getLast?_trim {l : List Char} {c : Char} (h : c ∈ (trim l).getLast?) :
    isBlank c = false :=
  of_mem_getLast?_dropEndWhile h

/-- Only blanks are trimmed away as a whole. -/
theorem trim_eq_nil_iff {l : List Char} : trim l = [] ↔ ∀ c ∈ l, isBlank c := by
  rw [trim, dropEndWhile_eq_nil_iff]
  constructor
  · intro h c hc
    rw [← List.takeWhile_append_dropWhile (p := isBlank) (l := l), List.mem_append] at hc
    rcases hc with hc | hc
    · exact List.mem_takeWhile_imp hc
    · exact h c hc
  · intro h c hc
    exact h c ((List.dropWhile_sublist isBlank).subset hc)

/-- Nothing is trimmed where no blank stands at an end. -/
theorem trim_eq_self {l : List Char} (hhead : ∀ c ∈ l.head?, isBlank c = false)
    (hlast : ∀ c ∈ l.getLast?, isBlank c = false) : trim l = l := by
  have hdrop : l.dropWhile isBlank = l := by
    cases l with
    | nil => rfl
    | cons c l => exact List.dropWhile_cons_of_neg (by simp [hhead c rfl])
  rw [trim, hdrop]
  exact dropEndWhile_eq_self hlast

theorem trim_of_not_blank {l : List Char} (h : ∀ c ∈ l, isBlank c = false) : trim l = l :=
  trim_eq_self (fun c hc => h c (List.mem_of_mem_head? hc))
    fun c hc => h c (List.mem_of_mem_getLast? hc)

theorem isBlank_of_mem_head?_trim {l : List Char} {c : Char} (h : c ∈ (trim l).head?) :
    isBlank c = false := by
  obtain ⟨t, ht, -⟩ := exists_dropEndWhile_append isBlank (l.dropWhile isBlank)
  have hhead := List.head?_dropWhile_not isBlank l
  rw [trim] at h
  rw [ht, List.head?_append, Option.mem_def.1 h] at hhead
  simpa using hhead

@[simp] theorem trim_trim (l : List Char) : trim (trim l) = trim l :=
  trim_eq_self (fun _ => isBlank_of_mem_head?_trim) fun _ => isBlank_of_mem_getLast?_trim

theorem trim_append_of_blank {gap : List Char} (h : ∀ c ∈ gap, isBlank c) (l : List Char) :
    trim (l ++ gap) = trim l := by
  rw [trim, trim, List.dropWhile_append]
  split
  · next hempty =>
      rw [List.isEmpty_iff.1 hempty, List.dropWhile_eq_nil_iff.2 h]
  · exact dropEndWhile_append_of_all _ h

/-! ### Words -/

theorem words_append_cons {c : Char} (hc : isBlank c) (l r : List Char) :
    words (l ++ c :: r) = words l ++ words r := by
  rw [words, List.splitOnP_append_cons l r hc, List.filter_append]
  rfl

theorem words_append_of_blank {gap : List Char} (h : ∀ c ∈ gap, isBlank c) (l : List Char) :
    words (gap ++ l) = words l := by
  induction gap with
  | nil => rfl
  | cons c gap ih =>
      obtain ⟨hc, hgap⟩ := List.forall_mem_cons.1 h
      have hcons := words_append_cons hc [] (gap ++ l)
      rw [ih hgap] at hcons
      exact hcons

theorem words_of_not_blank {l : List Char} (hne : l ≠ []) (h : ∀ c ∈ l, isBlank c = false) :
    words l = [l] := by
  simp [words, List.splitOnP_eq_singleton h, hne]

/-- A text without blanks is one word, if it is not empty. -/
theorem words_eq_ite {l : List Char} (h : ∀ c ∈ l, isBlank c = false) :
    words l = if l = [] then [] else [l] := by
  split
  · next hnil =>
      subst hnil
      rfl
  · next hne => exact words_of_not_blank hne h

/-- Only blanks hold no word. -/
theorem words_eq_nil_iff {l : List Char} : words l = [] ↔ ∀ c ∈ l, isBlank c := by
  constructor
  · induction l using pieceInduction (p := isBlank) with
    | last x hx =>
        rw [words_eq_ite hx]
        intro h
        have hnil : x = [] := by simpa using h
        simp [hnil]
    | piece x c r hx hc ih =>
        rw [words_append_cons hc, List.append_eq_nil_iff, words_eq_ite hx]
        rintro ⟨h, hr⟩
        have hnil : x = [] := by simpa using h
        rw [hnil, List.nil_append, List.forall_mem_cons]
        exact ⟨hc, ih hr⟩
  · intro h
    have happend := words_append_of_blank h []
    rwa [List.append_nil] at happend

theorem forall_mem_words {l : List Char} :
    ∀ w ∈ words l, w ≠ [] ∧ ∀ c ∈ w, isBlank c = false := by
  induction l using pieceInduction (p := isBlank) with
  | last x hx =>
      rw [words_eq_ite hx]
      split
      · simp
      · next hne => simpa using ⟨hne, hx⟩
  | piece x c r hx hc ih =>
      rw [words_append_cons hc, List.forall_mem_append, words_eq_ite hx]
      refine ⟨?_, ih⟩
      split
      · simp
      · next hne => simpa using ⟨hne, hx⟩

theorem words_append_of_blank_end {gap : List Char} (h : ∀ c ∈ gap, isBlank c) (l : List Char) :
    words (l ++ gap) = words l := by
  cases gap with
  | nil => rw [List.append_nil]
  | cons c gap =>
      obtain ⟨hc, hgap⟩ := List.forall_mem_cons.1 h
      rw [words_append_cons hc, words_eq_nil_iff.2 hgap, List.append_nil]

/-- A word ends at the blanks after it. -/
theorem words_append_gap {w gap : List Char} (hne : w ≠ []) (hw : ∀ c ∈ w, isBlank c = false)
    (hgap : gap ≠ []) (hblank : ∀ c ∈ gap, isBlank c) (l : List Char) :
    words (w ++ gap ++ l) = w :: words l := by
  obtain ⟨c, gap, rfl⟩ := List.exists_cons_of_ne_nil hgap
  obtain ⟨hc, hrest⟩ := List.forall_mem_cons.1 hblank
  rw [List.append_assoc, List.cons_append, words_append_cons hc, words_of_not_blank hne hw,
    words_append_of_blank hrest]
  rfl

end GoCell.Text
