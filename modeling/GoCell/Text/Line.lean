import GoCell.Text.Blank

/-!
Lines end in LF. A text is cut either into lines that keep their end, so that
they join to the text again, or into lines of content, where LF or CR LF is
removed.
-/

namespace GoCell.Text

/-- The lines of a text, each with its LF; the last one may lack it. -/
def keptLines : List Char → List (List Char)
  | [] => []
  | c :: r =>
    if c = '\n' then [c] :: keptLines r
    else match keptLines r with
      | [] => [[c]]
      | l :: ls => (c :: l) :: ls

@[simp] theorem keptLines_nil : keptLines [] = [] := rfl

theorem keptLines_lf (r : List Char) : keptLines ('\n' :: r) = ['\n'] :: keptLines r := by
  simp [keptLines]

/-- Nothing is lost in cutting. -/
@[simp] theorem flatten_keptLines (l : List Char) : (keptLines l).flatten = l := by
  induction l with
  | nil => rfl
  | cons c r ih =>
    simp only [keptLines]
    split
    · simp [ih]
    · split
      · next h => simp [h] at ih; simp [← ih]
      · next h => simp [h] at ih; simp [← ih]

theorem keptLines_ne_nil {l : List Char} {line : List Char} (h : line ∈ keptLines l) :
    line ≠ [] := by
  induction l generalizing line with
  | nil => simp at h
  | cons c r ih =>
    simp only [keptLines] at h
    split at h
    · rcases List.mem_cons.1 h with rfl | h
      · simp
      · exact ih h
    · split at h
      · simp at h; simp [h]
      · next hr =>
        rcases List.mem_cons.1 h with rfl | h
        · simp
        · exact ih (by simp [hr, h])

/-- The content of a line: without LF, and then without one CR before it. -/
def lineContent (line : List Char) : List Char :=
  match line.reverse with
  | '\n' :: '\r' :: r => r.reverse
  | '\n' :: r => r.reverse
  | _ => line

/-- The contents of the lines of a text. -/
def lines (l : List Char) : List (List Char) :=
  (keptLines l).map lineContent

def isLineBreak (c : Char) : Bool := c == '\n' || c == '\r'

/-- A text without the run of CR and LF at its end. -/
def trimBreaks (l : List Char) : List Char :=
  dropEndWhile isLineBreak l

end GoCell.Text
