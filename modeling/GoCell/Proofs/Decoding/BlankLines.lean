import GoCell.Proofs.Decoding.Rows
import Mathlib.Logic.Relation

/-!
Line ends and blank lines in a text of rows. The rows are those of the pieces between the
LFs, since the CR before an LF is a blank at the end of its piece, and only a tab tells one
blank from another. So a text keeps its rows when its lines are ended in another way and
when lines of other blanks than tabs come in or go.
-/

namespace GoCell

open Text

/-! ### Rows between LFs -/

/-- The row of a line. -/
def rowOf (tabbed : Bool) (line : List Char) : List Value := (cellsOf tabbed line).map readScalar

/-- The rows of the pieces between LFs on which anything stands. -/
def rowsOf (tabbed : Bool) (l : List Char) : List (List Value) :=
  ((l.splitOn '\n').filter isFilled).map (rowOf tabbed)

/-- Blanks other than tabs, on one line. -/
def IsBlankLine (gap : List Char) : Prop := ∀ c ∈ gap, isBlank c ∧ c ≠ '\t' ∧ c ≠ '\n'

section Rows

variable {tabbed : Bool}

theorem rowsOf_append_lf (a b : List Char) :
    rowsOf tabbed (a ++ '\n' :: b) = rowsOf tabbed a ++ rowsOf tabbed b := by
  rw [rowsOf, List.splitOn_append_cons_self, List.filter_append, List.map_append]
  rfl

theorem rowsOf_of_lf_not_mem {line : List Char} (h : '\n' ∉ line) :
    rowsOf tabbed line = ([line].filter isFilled).map (rowOf tabbed) := by
  rw [rowsOf, List.splitOn_eq_singleton h]

theorem isFilled_append_of_blank {gap : List Char} (h : ∀ c ∈ gap, isBlank c) (line : List Char) :
    isFilled (line ++ gap) = isFilled line := by
  rw [isFilled, trim_append_of_blank h]
  rfl

/-- Where tabs separate, the blanks at the end of a line belong to its last cell. -/
theorem rowOf_append {gap : List Char} (h : IsBlankLine gap) (line : List Char) :
    rowOf tabbed (line ++ gap) = rowOf tabbed line := by
  have hblank : ∀ c ∈ gap, isBlank c := fun c hc => (h c hc).1
  cases tabbed with
  | false => rw [rowOf, cellsOf, if_neg (by decide), words_append_of_blank_end hblank]; rfl
  | true =>
      have htab : '\t' ∉ gap := fun hmem => (h _ hmem).2.1 rfl
      rw [rowOf, rowOf, cellsOf, cellsOf, if_pos rfl, if_pos rfl]
      induction line using splitInduction '\t' with
      | last x hx =>
          have hxgap : '\t' ∉ x ++ gap := by simp [hx, htab]
          rw [List.splitOn_eq_singleton hxgap, List.splitOn_eq_singleton hx, List.map_singleton,
            List.map_singleton, readScalar_append_of_blank hblank]
      | piece x r hx ih =>
          rw [List.append_assoc, List.cons_append, List.splitOn_append_cons_self_of_not_mem hx,
            List.splitOn_append_cons_self_of_not_mem hx, List.map_cons, List.map_cons, ih]

theorem rowsOf_append {gap : List Char} (h : IsBlankLine gap) {line : List Char}
    (hline : '\n' ∉ line) : rowsOf tabbed (line ++ gap) = rowsOf tabbed line := by
  have hgap : '\n' ∉ line ++ gap := by
    rw [List.mem_append, not_or]
    exact ⟨hline, fun hmem => (h _ hmem).2.2 rfl⟩
  rw [rowsOf_of_lf_not_mem hgap, rowsOf_of_lf_not_mem hline, List.filter_singleton,
    List.filter_singleton, isFilled_append_of_blank fun c hc => (h c hc).1]
  cases isFilled line with
  | false => rfl
  | true => simp [rowOf_append h]

theorem rowsOf_nil : rowsOf tabbed [] = [] := rfl

theorem rowsOf_gap {gap : List Char} (h : IsBlankLine gap) : rowsOf tabbed gap = [] := by
  have happend : rowsOf tabbed ([] ++ gap) = rowsOf tabbed [] := rowsOf_append h List.not_mem_nil
  rw [List.nil_append] at happend
  rw [happend, rowsOf_nil]

end Rows

/-! ### What a text is decoded to -/

theorem isBlankLine_cr : IsBlankLine ['\r'] := by simp [IsBlankLine, isBlank]

/-- A CR before LF is a blank that is not missed. -/
theorem exists_lineContent_append (x : List Char) :
    ∃ gap, IsBlankLine gap ∧ x = lineContent (x ++ ['\n']) ++ gap := by
  by_cases hcr : x.getLast? = some '\r'
  · obtain ⟨y, rfl⟩ := List.getLast?_eq_some_iff.1 hcr
    refine ⟨['\r'], isBlankLine_cr, ?_⟩
    rw [List.append_assoc, List.singleton_append, lineContent_crlf]
  · refine ⟨[], fun c hc => absurd hc List.not_mem_nil, ?_⟩
    rw [lineContent_lf hcr, List.append_nil]

/-- The lines of a text have the rows of the pieces between its LFs. -/
theorem map_filledLines_eq (tabbed : Bool) (l : List Char) :
    (filledLines l).map (rowOf tabbed) = rowsOf tabbed l := by
  induction l using splitInduction '\n' with
  | last x hx =>
      rw [rowsOf_of_lf_not_mem hx]
      rcases eq_or_ne x [] with rfl | hne
      · rfl
      · rw [filledLines, lines_of_lf_not_mem hx hne]
  | piece x r hx ih =>
      obtain ⟨gap, hgap, hcontent⟩ := exists_lineContent_append x
      have hline : '\n' ∉ lineContent (x ++ ['\n']) := fun hmem =>
        hx (hcontent ▸ List.mem_append_left _ hmem)
      rw [filledLines_append_lf hx, List.map_append, ih, rowsOf_append_lf,
        ← rowsOf_of_lf_not_mem hline, ← rowsOf_append hgap hline, ← hcontent]

theorem readTable_eq_rowsOf (l : List Char) :
    readTable l = .ofRows (rowsOf (l.contains '\t') l) := by
  rw [readTable_eq, ← map_filledLines_eq]
  rfl

/-- Texts with the same rows and the same separators are decoded alike. -/
theorem readTable_congr {a b : List Char} (htab : '\t' ∈ a ↔ '\t' ∈ b)
    (hrows : ∀ tabbed, rowsOf tabbed a = rowsOf tabbed b) : readTable a = readTable b := by
  have hcontains : a.contains '\t' = b.contains '\t' := by
    rw [Bool.eq_iff_iff, List.contains_iff_mem, List.contains_iff_mem]
    exact htab
  rw [readTable_eq_rowsOf, readTable_eq_rowsOf, hcontains, hrows]

/-! ### Line ends -/

/-- A text with CR LF in the place of each LF. -/
def crlf (l : List Char) : List Char := l.flatMap fun c => if c = '\n' then ['\r', '\n'] else [c]

theorem crlf_of_lf_not_mem {x : List Char} (h : '\n' ∉ x) : crlf x = x := by
  induction x with
  | nil => rfl
  | cons c x ih =>
      rw [List.mem_cons, not_or] at h
      rw [crlf, List.flatMap_cons, if_neg (Ne.symm h.1)]
      exact congrArg (c :: ·) (ih h.2)

theorem crlf_append_lf {x : List Char} (h : '\n' ∉ x) (r : List Char) :
    crlf (x ++ '\n' :: r) = (x ++ ['\r']) ++ '\n' :: crlf r := by
  have hx := crlf_of_lf_not_mem h
  rw [crlf] at *
  rw [List.flatMap_append, List.flatMap_cons, hx, if_pos rfl, crlf]
  simp

theorem tab_mem_crlf_iff {l : List Char} : '\t' ∈ crlf l ↔ '\t' ∈ l := by
  rw [crlf, List.mem_flatMap]
  constructor
  · rintro ⟨c, hc, hmem⟩
    split at hmem
    · simp at hmem
    · exact List.mem_singleton.1 hmem ▸ hc
  · intro h
    exact ⟨'\t', h, by simp⟩

theorem rowsOf_crlf (tabbed : Bool) (l : List Char) :
    rowsOf tabbed (crlf l) = rowsOf tabbed l := by
  induction l using splitInduction '\n' with
  | last x hx => rw [crlf_of_lf_not_mem hx]
  | piece x r hx ih =>
      rw [crlf_append_lf hx, rowsOf_append_lf, rowsOf_append_lf, ih, rowsOf_append isBlankLine_cr hx]

theorem readTable_crlf (l : List Char) : readTable (crlf l) = readTable l :=
  readTable_congr tab_mem_crlf_iff fun tabbed => rowsOf_crlf tabbed l

/-! ### Blank lines -/

/-- One edit that adds a line of blanks: before the first line, before another one, or
after the last one, once LF has ended it. -/
inductive AddsBlankLine : List Char → List Char → Prop
  | first {gap : List Char} (h : IsBlankLine gap) (b : List Char) :
    AddsBlankLine b (gap ++ '\n' :: b)
  | next {gap : List Char} (h : IsBlankLine gap) (a b : List Char) :
    AddsBlankLine (a ++ '\n' :: b) (a ++ '\n' :: (gap ++ '\n' :: b))
  | last {gap : List Char} (h : IsBlankLine gap) (a : List Char) :
    AddsBlankLine (a ++ ['\n']) (a ++ '\n' :: gap)
  | ended (a : List Char) : AddsBlankLine a (a ++ ['\n'])

theorem IsBlankLine.tab_not_mem {gap : List Char} (h : IsBlankLine gap) : '\t' ∉ gap :=
  fun hmem => (h _ hmem).2.1 rfl

theorem AddsBlankLine.readTable_eq {l l' : List Char} (h : AddsBlankLine l l') :
    readTable l' = readTable l := by
  cases h with
  | first h b =>
      apply readTable_congr
      · simp [h.tab_not_mem]
      · intro tabbed
        rw [rowsOf_append_lf, rowsOf_gap h, List.nil_append]
  | next h a b =>
      apply readTable_congr
      · simp [h.tab_not_mem]
      · intro tabbed
        rw [rowsOf_append_lf, rowsOf_append_lf, rowsOf_append_lf, rowsOf_gap h, List.nil_append]
  | last h a =>
      apply readTable_congr
      · simp [h.tab_not_mem]
      · intro tabbed
        rw [rowsOf_append_lf, rowsOf_append_lf, rowsOf_gap h, rowsOf_nil]
  | ended a =>
      apply readTable_congr
      · simp
      · intro tabbed
        rw [rowsOf_append_lf, rowsOf_nil, List.append_nil]

/-- However many such lines come in or go, the text is decoded to the same. -/
theorem readTable_eq_of_eqvGen {l l' : List Char} (h : Relation.EqvGen AddsBlankLine l l') :
    readTable l' = readTable l := by
  induction h with
  | rel a b hstep => exact hstep.readTable_eq
  | refl a => rfl
  | symm a b _ ih => exact ih.symm
  | trans a b c _ _ ihab ihbc => exact ihbc.trans ihab

/-! ### Rows and their lines -/

/-- Whether a row is that of a line: it has a cell at least, the cells are numbers and
trimmed texts, and none of them is empty unless tabs separate them. -/
structure IsRowOf (tabbed : Bool) (line : List Char) (row : List Value) : Prop where
  eq_rowOf : row = rowOf tabbed line
  ne_nil : row ≠ []
  scalar : ∀ cell ∈ row, cell.IsScalar
  no_empty : tabbed = false → .text "" ∉ row

theorem isRowOf_rowOf {tabbed : Bool} {line : List Char} (h : isFilled line) :
    IsRowOf tabbed line (rowOf tabbed line) where
  eq_rowOf := rfl
  ne_nil := by
    rw [rowOf, ne_eq, List.map_eq_nil_iff]
    cases tabbed with
    | false =>
        rw [cellsOf, if_neg (by decide), words_eq_nil_iff]
        exact isFilled_iff.1 h
    | true => exact List.splitOn_ne_nil '\t' line
  scalar := List.forall_mem_map.2 fun cell _ => Value.isScalar_readScalar cell
  no_empty := by
    rintro rfl hmem
    obtain ⟨w, hw, hread⟩ := List.mem_map.1 hmem
    obtain ⟨hne, hblank⟩ := forall_mem_words w hw
    have htext := (readScalar_eq_text_iff.1 hread).1
    rw [trim_of_not_blank hblank] at htext
    exact hne htext.symm

theorem isFilled_eq_any (line : List Char) : isFilled line = line.any fun c => !isBlank c := by
  rw [Bool.eq_iff_iff, isFilled_iff]
  simp

/-- A text is decoded to the same rows with each LF as CR LF, and with any lines of blanks
other than tabs added or removed. There is one row for each line that is not blank. -/
theorem decodeOutput_table_lines (text : String) :
    decodeOutput .table (String.ofList (crlf text.toList)) = decodeOutput .table text ∧
    (∀ text' : String, Relation.EqvGen AddsBlankLine text.toList text'.toList →
      decodeOutput .table text' = decodeOutput .table text) ∧
    ∃ rows, decodeOutput .table text = .ofRows rows ∧
      List.Forall₂ (IsRowOf (text.toList.contains '\t'))
        ((text.toList.splitOn '\n').filter fun line => line.any fun c => !isBlank c) rows := by
  refine ⟨?_, fun text' h => readTable_eq_of_eqvGen h, _, readTable_eq_rowsOf text.toList, ?_⟩
  · rw [decodeOutput, String.toList_ofList]
    exact readTable_crlf text.toList
  · simp only [← isFilled_eq_any]
    rw [rowsOf, List.forall₂_map_right_iff, List.forall₂_same]
    intro line hline
    exact isRowOf_rowOf (List.mem_filter.1 hline).2

/-- An em space and LF before the first line, and a CR alone after the last one. -/
theorem decodeOutput_table_lines_spacedLines :
    Relation.EqvGen AddsBlankLine "a 1\n".toList "\u2003\na 1\n\r".toList ∧
      decodeOutput .table "\u2003\na 1\n\r" = decodeOutput .table "a 1\n" := by
  have hspace : IsBlankLine ['\u2003'] := by simp [IsBlankLine, isBlank]
  have hfirst : AddsBlankLine "a 1\n".toList "\u2003\na 1\n".toList := by
    rw [show "\u2003\na 1\n".toList = ['\u2003'] ++ '\n' :: "a 1\n".toList by decide]
    exact .first hspace _
  have hlast : AddsBlankLine "\u2003\na 1\n".toList "\u2003\na 1\n\r".toList := by
    rw [show "\u2003\na 1\n".toList = "\u2003\na 1".toList ++ ['\n'] by decide,
      show "\u2003\na 1\n\r".toList = "\u2003\na 1".toList ++ '\n' :: ['\r'] by decide]
    exact .last isBlankLine_cr _
  have hedits := Relation.EqvGen.trans _ _ _ (.rel _ _ hfirst) (.rel _ _ hlast)
  exact ⟨hedits, (decodeOutput_table_lines "a 1\n").2.1 _ hedits⟩

end GoCell
