import GoCell.Proofs.Text.Piece
import GoCell.Text.Line
import Mathlib.Data.List.DropRight
import Mathlib.Data.List.TakeWhile

/-!
The first line of a text, and induction on a text line by line. What is left of a
line after some of it has been read is still the first line of what is left of
the text, so a scanner that works inside of lines meets only one kind of piece.
-/

namespace GoCell.Text

/-- `FirstLine line tail` says that `line` is the first line of `line ++ tail`. -/
inductive FirstLine : List Char → List Char → Prop
  | ended {x : List Char} (tail : List Char) (h : '\n' ∉ x) : FirstLine (x ++ ['\n']) tail
  | last {x : List Char} (h : '\n' ∉ x) (hx : x ≠ []) : FirstLine x []

theorem FirstLine.ne_nil {line tail : List Char} (h : FirstLine line tail) : line ≠ [] := by
  cases h with
  | ended tail h => simp
  | last h hx => exact hx

/-- A line that something follows ends in LF. -/
theorem FirstLine.getLast?_eq {line tail : List Char} (h : FirstLine line tail)
    (htail : tail ≠ []) : line.getLast? = some '\n' := by
  cases h with
  | ended tail h => simp
  | last h hx => exact absurd rfl htail

/-- A suffix of the first line is the first line of what it begins. -/
theorem FirstLine.of_suffix {line tail rest : List Char} (h : FirstLine line tail)
    (hrest : rest <:+ line) (hne : rest ≠ []) : FirstLine rest tail := by
  cases h with
  | @ended x tail hx =>
      rcases List.suffix_concat_iff.1 hrest with rfl | ⟨y, rfl, hy⟩
      · exact absurd rfl hne
      · exact .ended tail fun hmem => hx (hy.subset hmem)
  | last hx _ => exact .last (fun hmem => hx (hrest.subset hmem)) hne

theorem FirstLine.nil_or_of_suffix {line tail rest : List Char}
    (h : line = [] ∨ FirstLine line tail) (hrest : rest <:+ line) :
    rest = [] ∨ FirstLine rest tail := by
  by_cases hne : rest = []
  · exact .inl hne
  · rcases h with rfl | h
    · exact absurd (List.suffix_nil.1 hrest) hne
    · exact .inr (h.of_suffix hrest hne)

theorem keptLines_of_not_mem {x : List Char} (h : '\n' ∉ x) (hx : x ≠ []) :
    keptLines x = [x] := by
  induction x with
  | nil => exact absurd rfl hx
  | cons c x ih =>
      have hc : c ≠ '\n' := fun e => h (e ▸ List.mem_cons_self)
      cases x with
      | nil => simp [keptLines, hc]
      | cons d x =>
          have := ih (fun hmem => h (List.mem_cons_of_mem _ hmem)) (by simp)
          simp [keptLines, hc] at this ⊢
          rw [this]

theorem keptLines_append_lf {x : List Char} (h : '\n' ∉ x) (tail : List Char) :
    keptLines (x ++ '\n' :: tail) = (x ++ ['\n']) :: keptLines tail := by
  induction x with
  | nil => exact keptLines_lf tail
  | cons c x ih =>
      have hc : c ≠ '\n' := fun e => h (e ▸ List.mem_cons_self)
      have hx : '\n' ∉ x := fun hmem => h (List.mem_cons_of_mem _ hmem)
      simp [keptLines, hc, ih hx]

theorem FirstLine.keptLines_append {line tail : List Char} (h : FirstLine line tail) :
    keptLines (line ++ tail) = line :: keptLines tail := by
  cases h with
  | ended tail h => simpa using keptLines_append_lf h tail
  | last h hx => simpa using keptLines_of_not_mem h hx

theorem ne_lf_of_not_mem {x : List Char} (h : '\n' ∉ x) :
    ∀ c ∈ x, decide (c ≠ '\n') = true := by
  intro c hc
  simpa using fun e : c = '\n' => h (e ▸ hc)

theorem takeWhile_append_lf {x : List Char} (h : '\n' ∉ x) (tail : List Char) :
    (x ++ '\n' :: tail).takeWhile (· ≠ '\n') = x := by
  rw [List.takeWhile_append_of_pos (ne_lf_of_not_mem h)]
  simp

theorem dropWhile_append_lf {x : List Char} (h : '\n' ∉ x) (tail : List Char) :
    (x ++ '\n' :: tail).dropWhile (· ≠ '\n') = '\n' :: tail := by
  rw [List.dropWhile_append_of_pos (ne_lf_of_not_mem h)]
  simp

theorem FirstLine.dropWhile_append {line tail : List Char} (h : FirstLine line tail) :
    (line ++ tail).dropWhile (· ≠ '\n') = if '\n' ∈ line then '\n' :: tail else [] := by
  cases h with
  | @ended x tail hx =>
      rw [if_pos (by simp), List.append_assoc]
      exact dropWhile_append_lf hx tail
  | @last x hx _ =>
      rw [if_neg hx, List.append_nil]
      exact List.dropWhile_eq_nil_iff.2 (ne_lf_of_not_mem hx)

/-- What follows the first LF is what follows the first line. -/
theorem FirstLine.tail_dropWhile {line tail : List Char} (h : FirstLine line tail) :
    ((line ++ tail).dropWhile (· ≠ '\n')).tail = tail := by
  rw [h.dropWhile_append]
  cases h with
  | ended tail h => simp
  | last h _ => simp [h]

/-- The line breaks at the end of a line are cut off with its LF or without. -/
theorem FirstLine.trimBreaks_takeWhile {line tail : List Char} (h : FirstLine line tail) :
    trimBreaks ((line ++ tail).takeWhile (· ≠ '\n')) = trimBreaks line := by
  cases h with
  | @ended x tail hx =>
      rw [List.append_assoc, List.singleton_append, takeWhile_append_lf hx]
      exact (dropEndWhile_append_of_all x (t := ['\n']) (by simp [isLineBreak])).symm
  | @last x hx _ =>
      rw [List.append_nil, List.takeWhile_eq_self_iff.2 (ne_lf_of_not_mem hx)]

/-- The breaks at the end of a text are cut off the part of it that starts with
another character. -/
theorem trimBreaks_append_cons {c : Char} (l t : List Char) (h : isLineBreak c = false) :
    trimBreaks (l ++ c :: t) = l ++ trimBreaks (c :: t) := by
  rw [trimBreaks, dropEndWhile_append_cons_of_neg l t h]
  have := dropEndWhile_append_cons_of_neg [] t h
  rw [List.nil_append, List.nil_append] at this
  rw [trimBreaks, this]

theorem trimBreaks_isPrefix (l : List Char) : trimBreaks l <+: l := by
  obtain ⟨t, ht, -⟩ := exists_dropEndWhile_append isLineBreak l
  exact ⟨t, ht.symm⟩

@[simp] theorem trimBreaks_trimBreaks (l : List Char) :
    trimBreaks (trimBreaks l) = trimBreaks l := by
  simp [trimBreaks, dropEndWhile, List.dropWhile_idempotent]

/-- A text that loses nothing is empty or ends in another character than a break. -/
theorem eq_nil_or_concat_of_trimBreaks_eq {l : List Char} (h : trimBreaks l = l) :
    l = [] ∨ ∃ x c, l = x ++ [c] ∧ isLineBreak c = false := by
  rcases List.eq_nil_or_concat' l with rfl | ⟨x, c, rfl⟩
  · exact .inl rfl
  · refine .inr ⟨x, c, rfl, ?_⟩
    by_contra hc
    have hx : trimBreaks (x ++ [c]) = trimBreaks x :=
      dropEndWhile_append_of_all x (t := [c]) (by simpa using hc)
    have hle := (trimBreaks_isPrefix x).length_le
    rw [← hx, h, List.length_append, List.length_singleton] at hle
    omega

theorem exists_firstLine {l : List Char} (h : l ≠ []) :
    ∃ line tail, FirstLine line tail ∧ l = line ++ tail := by
  by_cases hlf : '\n' ∈ l
  · obtain ⟨x, tail, rfl, hx⟩ := List.eq_append_cons_of_mem hlf
    exact ⟨x ++ ['\n'], tail, .ended tail hx, by simp⟩
  · exact ⟨l, [], .last hlf h, by simp⟩

/-- Induction on a text line by line. -/
@[elab_as_elim]
theorem lineInduction {motive : List Char → Prop} (nil : motive [])
    (line : ∀ line tail, FirstLine line tail → motive tail → motive (line ++ tail))
    (l : List Char) : motive l := by
  induction hn : l.length using Nat.strongRecOn generalizing l with
  | ind n ih =>
      by_cases h : l = []
      · exact h ▸ nil
      · obtain ⟨first, tail, hfirst, rfl⟩ := exists_firstLine h
        have hpos := List.length_pos_iff.2 hfirst.ne_nil
        rw [List.length_append] at hn
        exact line first tail hfirst (ih tail.length (by omega) tail rfl)

theorem isLineBreak_iff {c : Char} : isLineBreak c = true ↔ c = '\n' ∨ c = '\r' := by
  simp [isLineBreak]

/-- A text without line breaks. -/
def OneLine (l : List Char) : Prop := ∀ c ∈ l, isLineBreak c = false

instance (l : List Char) : Decidable (OneLine l) :=
  List.decidableBAll (p := fun c => isLineBreak c = false) l

@[simp] theorem oneLine_nil : OneLine [] := by simp [OneLine]

@[simp] theorem oneLine_cons {c : Char} {l : List Char} :
    OneLine (c :: l) ↔ isLineBreak c = false ∧ OneLine l := List.forall_mem_cons

@[simp] theorem oneLine_append {a b : List Char} : OneLine (a ++ b) ↔ OneLine a ∧ OneLine b :=
  List.forall_mem_append

theorem oneLine_flatMap {α : Type} {l : List α} {f : α → List Char}
    (h : ∀ a ∈ l, OneLine (f a)) : OneLine (l.flatMap f) := by
  intro c hc
  obtain ⟨a, ha, hc⟩ := List.mem_flatMap.1 hc
  exact h a ha c hc

theorem oneLine_intercalate {sep : List Char} {ls : List (List Char)} (hsep : OneLine sep)
    (h : ∀ l ∈ ls, OneLine l) : OneLine (sep.intercalate ls) :=
  (forall_mem_intercalate hsep).2 h

theorem OneLine.lf_not_mem {l : List Char} (h : OneLine l) : '\n' ∉ l := fun hmem =>
  absurd (h _ hmem) (by decide)

theorem OneLine.trimBreaks_eq {l : List Char} (h : OneLine l) : trimBreaks l = l := by
  obtain ⟨t, ht, hbreaks⟩ := exists_dropEndWhile_append isLineBreak l
  cases t with
  | nil => rw [trimBreaks, ← List.append_nil (dropEndWhile isLineBreak l), ← ht]
  | cons c t =>
      have hmem : c ∈ l := ht ▸ List.mem_append_right _ List.mem_cons_self
      exact absurd (h c hmem) (by simp [hbreaks c List.mem_cons_self])

/-- The end of one line: CRs, and at most one LF, which is the last. -/
structure LineEnd (l : List Char) : Prop where
  breaks : ∀ c ∈ l, isLineBreak c
  lf_last : '\n' ∉ l.dropLast

/-- What is cut off at the first line of a text is the end of that line. -/
theorem exists_lineEnd (l : List Char) :
    ∃ t, l = trimBreaks (l.takeWhile (· ≠ '\n')) ++ t ++ (l.dropWhile (· ≠ '\n')).tail ∧
      LineEnd t := by
  obtain ⟨crs, hline, hcrs⟩ := exists_dropEndWhile_append isLineBreak (l.takeWhile (· ≠ '\n'))
  have hsplit := List.takeWhile_append_dropWhile (p := (· ≠ '\n')) (l := l)
  have hlf : '\n' ∉ crs := by
    intro hmem
    have : '\n' ∈ l.takeWhile (· ≠ '\n') := hline ▸ List.mem_append_right _ hmem
    simpa using List.mem_takeWhile_imp this
  rw [trimBreaks]
  cases hdrop : l.dropWhile (· ≠ '\n') with
  | nil =>
      refine ⟨crs, ?_, hcrs, fun hmem => hlf (List.dropLast_subset crs hmem)⟩
      rw [hdrop, List.append_nil] at hsplit
      rw [List.tail_nil, List.append_nil, ← hline, hsplit]
  | cons c r =>
      have hc : c = '\n' := by
        have hhead := List.head?_dropWhile_not (· ≠ '\n') l
        rw [hdrop] at hhead
        simpa using hhead
      subst hc
      refine ⟨crs ++ ['\n'], ?_, ?_, by simpa using hlf⟩
      · rw [← List.append_assoc, ← hline, List.tail_cons, List.append_assoc,
          List.singleton_append, ← hdrop, hsplit]
      · intro c hc
        rcases List.mem_append.1 hc with hc | hc
        · exact hcrs c hc
        · rw [List.mem_singleton.1 hc]
          decide

theorem lineContent_append_lf {l : List Char} (h : OneLine l) : lineContent (l ++ ['\n']) = l := by
  rcases List.eq_nil_or_concat' l with rfl | ⟨x, c, rfl⟩
  · rfl
  · have hc : c ≠ '\r' := by
      rintro rfl
      exact absurd (h '\r' (by simp)) (by decide)
    simp [lineContent, hc]

/-- Lines that are each ended by LF are read back. -/
theorem lines_flatMap {ls : List (List Char)} (h : ∀ l ∈ ls, OneLine l) :
    lines (ls.flatMap (· ++ ['\n'])) = ls := by
  induction ls with
  | nil => rfl
  | cons l ls ih =>
      have hl : OneLine l := h l List.mem_cons_self
      have ih := ih fun x hx => h x (List.mem_cons_of_mem _ hx)
      rw [List.flatMap_cons, List.append_assoc, List.singleton_append, lines,
        keptLines_append_lf hl.lf_not_mem, List.map_cons, lineContent_append_lf hl]
      rw [lines] at ih
      rw [ih]

/-- Lines that are each ended by LF are the pieces between them. -/
theorem splitOn_flatMap_lf {lines : List (List Char)} (h : ∀ line ∈ lines, '\n' ∉ line) :
    (lines.flatMap (· ++ ['\n'])).splitOn '\n' = lines ++ [[]] := by
  induction lines with
  | nil => rfl
  | cons line lines ih =>
      rw [List.forall_mem_cons] at h
      rw [List.flatMap_cons, List.append_assoc, List.singleton_append,
        List.splitOn_append_cons_self_of_not_mem h.1, ih h.2, List.cons_append]

end GoCell.Text
