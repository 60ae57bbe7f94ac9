import GoCell.Proofs.Text.Line
import GoCell.Proofs.Text.Words

/-!
Texts that are printed line by line, and lines that are printed word by word. Lines may
end in LF or CR LF, and words may stand any blanks apart; both are cut back into what
was printed, blank lines aside.
-/

namespace GoCell.Text

/-! ### Lines -/

/-- A text that consists of these lines, each ended by LF or CR LF. The last one may
lack its end. -/
inductive PrintedLines : List (List Char) → List Char → Prop
  | nil : PrintedLines [] []
  | last (line : List Char) : PrintedLines [line] line
  | lf (line : List Char) {lines : List (List Char)} {text : List Char}
      (h : PrintedLines lines text) : PrintedLines (line :: lines) (line ++ '\n' :: text)
  | crlf (line : List Char) {lines : List (List Char)} {text : List Char}
      (h : PrintedLines lines text) : PrintedLines (line :: lines) (line ++ '\r' :: '\n' :: text)

/-- Whether anything stands on a line. -/
def isFilled (line : List Char) : Bool := !(trim line).isEmpty

/-- The lines of a text on which anything stands. -/
def filledLines (l : List Char) : List (List Char) := (lines l).filter isFilled

theorem isFilled_iff {line : List Char} : isFilled line = true ↔ ¬∀ c ∈ line, isBlank c := by
  rw [← trim_eq_nil_iff]
  simp [isFilled]

theorem lines_append_lf {line : List Char} (hlf : '\n' ∉ line) (text : List Char) :
    lines (line ++ '\n' :: text) = lineContent (line ++ ['\n']) :: lines text := by
  rw [lines, keptLines_append_lf hlf, List.map_cons]
  rfl

theorem lines_of_lf_not_mem {line : List Char} (hlf : '\n' ∉ line) (hne : line ≠ []) :
    lines line = [line] := by
  rw [lines, keptLines_of_not_mem hlf hne, List.map_singleton, lineContent]
  split
  · next heq => exact absurd (List.mem_reverse.1 (heq ▸ List.mem_cons_self)) hlf
  · next heq => exact absurd (List.mem_reverse.1 (heq ▸ List.mem_cons_self)) hlf
  · rfl

/-- One CR before LF belongs to the end of the line. -/
theorem lineContent_crlf (line : List Char) : lineContent (line ++ ['\r', '\n']) = line := by
  simp [lineContent]

theorem lineContent_lf {line : List Char} (hcr : line.getLast? ≠ some '\r') :
    lineContent (line ++ ['\n']) = line := by
  rcases List.eq_nil_or_concat' line with rfl | ⟨x, c, rfl⟩
  · rfl
  · have hc : c ≠ '\r' := by simpa using hcr
    simp [lineContent, hc]

theorem filledLines_append_lf {line : List Char} (hlf : '\n' ∉ line) (text : List Char) :
    filledLines (line ++ '\n' :: text) =
      [lineContent (line ++ ['\n'])].filter isFilled ++ filledLines text := by
  rw [filledLines, lines_append_lf hlf, ← List.singleton_append, List.filter_append]
  rfl

namespace PrintedLines

variable {ls : List (List Char)} {text : List Char} (h : PrintedLines ls text)

include h

/-- What stands on the lines, and the two characters of their ends. -/
theorem mem_line_or_mem_end {c : Char} (hc : c ∈ text) : (∃ line ∈ ls, c ∈ line) ∨ c = '\r' ∨ c = '\n' := by
  induction h with
  | nil => cases hc
  | last line => exact .inl ⟨line, by simp, hc⟩
  | lf line h ih =>
      rcases List.mem_append.1 hc with hc | hc
      · exact .inl ⟨line, by simp, hc⟩
      rcases List.mem_cons.1 hc with rfl | hc
      · exact .inr (.inr rfl)
      · exact (ih hc).imp_left fun ⟨l, hl, hc⟩ => ⟨l, List.mem_cons_of_mem _ hl, hc⟩
  | crlf line h ih =>
      rcases List.mem_append.1 hc with hc | hc
      · exact .inl ⟨line, by simp, hc⟩
      rcases List.mem_cons.1 hc with rfl | hc
      · exact .inr (.inl rfl)
      rcases List.mem_cons.1 hc with rfl | hc
      · exact .inr (.inr rfl)
      · exact (ih hc).imp_left fun ⟨l, hl, hc⟩ => ⟨l, List.mem_cons_of_mem _ hl, hc⟩

theorem mem_of_mem_line {line : List Char} {c : Char} (hline : line ∈ ls) (hc : c ∈ line) :
    c ∈ text := by
  induction h with
  | nil => cases hline
  | last line' => exact List.mem_singleton.1 hline ▸ hc
  | lf line' h ih =>
      rcases List.mem_cons.1 hline with rfl | hline
      · exact List.mem_append_left _ hc
      · simp [ih hline]
  | crlf line' h ih =>
      rcases List.mem_cons.1 hline with rfl | hline
      · exact List.mem_append_left _ hc
      · simp [ih hline]

/-- Whatever the ends are, the same lines are cut out of the text. An empty last line
without an end is lost, but nothing stands on it. -/
theorem filledLines_eq (hlf : ∀ line ∈ ls, '\n' ∉ line)
    (hcr : ∀ line ∈ ls, line.getLast? ≠ some '\r') : filledLines text = ls.filter isFilled := by
  induction h with
  | nil => rfl
  | last line =>
      by_cases hne : line = []
      · subst hne
        rfl
      · rw [filledLines, lines_of_lf_not_mem (hlf line (by simp)) hne]
  | lf line h ih =>
      obtain ⟨hlf, hlfs⟩ := List.forall_mem_cons.1 hlf
      obtain ⟨hcr, hcrs⟩ := List.forall_mem_cons.1 hcr
      rw [filledLines_append_lf hlf, lineContent_lf hcr, ih hlfs hcrs, ← List.filter_append,
        List.singleton_append]
  | @crlf line lines text h ih =>
      obtain ⟨hlf, hlfs⟩ := List.forall_mem_cons.1 hlf
      have hlf : '\n' ∉ line ++ ['\r'] := by simpa using hlf
      have hsplit : line ++ '\r' :: '\n' :: text = (line ++ ['\r']) ++ '\n' :: text := by simp
      rw [hsplit, filledLines_append_lf hlf, List.append_assoc, List.singleton_append,
        lineContent_crlf, ih hlfs (List.forall_mem_cons.1 hcr).2, ← List.filter_append,
        List.singleton_append]

end PrintedLines

/-! ### Words -/

/-- A line that consists of these words, any blanks apart that leave it without tabs and
on one line. -/
inductive SpacedWords : List (List Char) → List Char → Prop
  | last (w : List Char) : SpacedWords [w] w
  | cons (w : List Char) {gap line : List Char} {ws : List (List Char)} (hne : gap ≠ [])
      (hgap : ∀ c ∈ gap, isBlank c ∧ c ≠ '\t' ∧ c ≠ '\n') (h : SpacedWords ws line) :
      SpacedWords (w :: ws) (w ++ gap ++ line)

namespace SpacedWords

variable {ws : List (List Char)} {line : List Char} (h : SpacedWords ws line)

include h

theorem ne_nil (hne : ∀ w ∈ ws, w ≠ []) : line ≠ [] := by
  cases h with
  | last w => exact hne line (by simp)
  | cons w hgap => simp [hgap]

theorem words_eq (hws : ∀ w ∈ ws, w ≠ [] ∧ ∀ c ∈ w, isBlank c = false) : words line = ws := by
  induction h with
  | last w =>
      obtain ⟨hne, hw⟩ := hws w (by simp)
      exact words_of_not_blank hne hw
  | cons w hgapne hgap h ih =>
      obtain ⟨⟨hne, hw⟩, hws⟩ := List.forall_mem_cons.1 hws
      rw [words_append_gap hne hw hgapne (fun c hc => (hgap c hc).1), ih hws]

/-- What holds of the words and of the blanks between them holds of the line. -/
theorem forall_mem {P : Char → Prop} (hwords : ∀ w ∈ ws, ∀ c ∈ w, P c)
    (hgaps : ∀ c, c ≠ '\t' → c ≠ '\n' → P c) : ∀ c ∈ line, P c := by
  induction h with
  | last w => exact hwords w (by simp)
  | cons w hgapne hgap h ih =>
      obtain ⟨hw, hws⟩ := List.forall_mem_cons.1 hwords
      rw [List.forall_mem_append, List.forall_mem_append]
      exact ⟨⟨hw, fun c hc => hgaps c (hgap c hc).2.1 (hgap c hc).2.2⟩, ih hws⟩

/-- A line ends where its last word ends. -/
theorem not_blank_getLast? (hws : ∀ w ∈ ws, w ≠ [] ∧ ∀ c ∈ w, isBlank c = false) :
    ∀ c ∈ line.getLast?, isBlank c = false := by
  induction h with
  | last w => exact fun c hc => (hws w (by simp)).2 c (List.mem_of_mem_getLast? hc)
  | cons w hgapne hgap h ih =>
      have hws := (List.forall_mem_cons.1 hws).2
      rw [List.getLast?_append_of_ne_nil _ (h.ne_nil fun w hw => (hws w hw).1)]
      exact ih hws

end SpacedWords

end GoCell.Text
