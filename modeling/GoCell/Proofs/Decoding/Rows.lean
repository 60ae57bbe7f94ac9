import GoCell.Proofs.Decoding.Scalar
import GoCell.Proofs.Outcome
import GoCell.Proofs.Text.Printed

/-!
Rows of cells, printed and read back. A tab anywhere makes tabs the separators of all
lines, so a row of one cell is safe only beside a row of two; and a row that prints as a
blank line is lost.
-/

namespace GoCell

open Text

/-- Rows of cells as a value. -/
def Value.ofRows (rows : List (List Value)) : Value := .seq (rows.map .seq)

/-- The cells of a row with tabs between them. -/
def tabbedRow (row : List Value) : List Char := ['\t'].intercalate (row.map (·.display.toList))

/-- What the separators of a text make the cells of a line. -/
def cellsOf (tabbed : Bool) (line : List Char) : List (List Char) :=
  if tabbed then line.splitOn '\t' else words line

theorem readTable_eq (l : List Char) :
    readTable l =
      .ofRows ((filledLines l).map fun line => (cellsOf (l.contains '\t') line).map readScalar) := by
  rw [Value.ofRows, List.map_map]
  rfl

/-- Where every line is read as its row, the rows come back unless a line is blank. -/
theorem readTable_eq_ofRows_iff {lines : List (List Char)} {text : List Char}
    {rows : List (List Value)} (hprinted : PrintedLines lines text)
    (hlf : ∀ line ∈ lines, '\n' ∉ line) (hcr : ∀ line ∈ lines, line.getLast? ≠ some '\r')
    (hread : List.Forall₂ (fun row line =>
      (cellsOf (text.contains '\t') line).map readScalar = row) rows lines) :
    readTable text = .ofRows rows ↔ ∀ line ∈ lines, isFilled line := by
  have hrows : lines.map (fun line => (cellsOf (text.contains '\t') line).map readScalar) = rows := by
    rw [← List.forall₂_eq_eq_eq, List.forall₂_map_left_iff]
    exact hread.flip
  have hinj : Function.Injective Value.ofRows := by
    intro a b hab
    rw [Value.ofRows, Value.ofRows, Value.seq.injEq] at hab
    exact List.map_injective_iff.2 (fun _ _ => Value.seq.inj) hab
  rw [readTable_eq, hinj.eq_iff, hprinted.filledLines_eq hlf hcr, ← hrows]
  constructor
  · intro h
    have hlength := congrArg List.length h
    rw [List.length_map, List.length_map] at hlength
    exact List.length_filter_eq_length_iff.1 hlength
  · intro h
    rw [List.filter_eq_self.2 h]

/-! ### Rows with tabs -/

section Tabbed

variable {row : List Value} (hcells : ∀ cell ∈ row, cell.IsCell)

include hcells

theorem lf_not_mem_tabbedRow : '\n' ∉ tabbedRow row := by
  have hall : ∀ c ∈ tabbedRow row, c ≠ '\n' := by
    rw [tabbedRow, forall_mem_intercalate (by simp), List.forall_mem_map]
    intro cell hcell c hc hlf
    exact (hcells cell hcell).lf_not_mem (hlf ▸ hc)
  exact fun hmem => hall _ hmem rfl

theorem getLast?_tabbedRow_ne : (tabbedRow row).getLast? ≠ some '\r' := by
  refine getLast?_intercalate_ne (by decide) (List.forall_mem_map.2 fun cell hcell hlast => ?_)
  exact absurd ((hcells cell hcell).not_blank_getLast? _ hlast) (by decide)

theorem map_readScalar_splitOn_tabbedRow (hne : row ≠ []) :
    ((tabbedRow row).splitOn '\t').map readScalar = row := by
  have htab : ∀ l ∈ row.map (·.display.toList), '\t' ∉ l :=
    List.forall_mem_map.2 fun cell hcell => (hcells cell hcell).tab_not_mem
  rw [tabbedRow, List.splitOn_intercalate '\t' htab (by simpa using hne), List.map_map]
  exact (List.map_congr_left (g := id) fun cell hcell =>
    (hcells cell hcell).readScalar_display).trans (List.map_id row)

/-- Only empty texts leave a row blank. -/
theorem isFilled_tabbedRow_iff :
    isFilled (tabbedRow row) = true ↔ ¬∀ cell ∈ row, cell = .text "" := by
  rw [isFilled_iff, tabbedRow, forall_mem_intercalate (by simp [isBlank]), List.forall_mem_map]
  refine not_congr (forall₂_congr fun cell hcell => ?_)
  exact (hcells cell hcell).blank_iff

end Tabbed

theorem tab_mem_tabbedRow {row : List Value} (h : 2 ≤ row.length) : '\t' ∈ tabbedRow row := by
  match row, h with
  | a :: b :: row, _ => simp [tabbedRow, List.intercalate_cons_cons]

theorem readTable_tabbed {rows : List (List Value)} {text : List Char}
    (hrows : ∀ row ∈ rows, row ≠ [] ∧ ∀ cell ∈ row, cell.IsCell)
    (hwide : ∃ row ∈ rows, 2 ≤ row.length) (hprinted : PrintedLines (rows.map tabbedRow) text) :
    readTable text = .ofRows rows ↔ ∀ row ∈ rows, ¬∀ cell ∈ row, cell = .text "" := by
  obtain ⟨wide, hmem, hlength⟩ := hwide
  have htab : text.contains '\t' := by
    rw [List.contains_iff_mem]
    exact hprinted.mem_of_mem_line (List.mem_map_of_mem hmem) (tab_mem_tabbedRow hlength)
  rw [readTable_eq_ofRows_iff hprinted, List.forall_mem_map]
  · exact forall₂_congr fun row hrow => isFilled_tabbedRow_iff (hrows row hrow).2
  · exact List.forall_mem_map.2 fun row hrow => lf_not_mem_tabbedRow (hrows row hrow).2
  · exact List.forall_mem_map.2 fun row hrow => getLast?_tabbedRow_ne (hrows row hrow).2
  · rw [htab, List.forall₂_map_right_iff, List.forall₂_same]
    exact fun row hrow => map_readScalar_splitOn_tabbedRow (hrows row hrow).2 (hrows row hrow).1

/-! ### Rows with blanks -/

/-- Whether a value prints as a single word. -/
def Value.IsWord (v : Value) : Prop :=
  v.display ≠ "" ∧ ∀ c ∈ v.display.toList, isBlank c = false

instance (v : Value) : Decidable v.IsWord :=
  have : Decidable (∀ c ∈ v.display.toList, isBlank c = false) :=
    List.decidableBAll (p := fun c => isBlank c = false) v.display.toList
  inferInstanceAs (Decidable (v.display ≠ "" ∧ ∀ c ∈ v.display.toList, isBlank c = false))

/-- Whether a line is made of the cells of a row with blanks between them. -/
def SpacedRow (row : List Value) (line : List Char) : Prop :=
  SpacedWords (row.map (·.display.toList)) line

section Spaced

variable {row : List Value} {line : List Char} (hwords : ∀ cell ∈ row, cell.IsWord)
  (h : SpacedRow row line)

include hwords

theorem isWord_display : ∀ w ∈ row.map (·.display.toList), w ≠ [] ∧ ∀ c ∈ w, isBlank c = false :=
  List.forall_mem_map.2 fun cell hcell => by
    obtain ⟨hne, hblank⟩ := hwords cell hcell
    exact ⟨fun hnil => hne (String.toList_eq_nil_iff.1 hnil), hblank⟩

include h

theorem not_tab_not_lf_of_mem_spacedRow : ∀ c ∈ line, c ≠ '\t' ∧ c ≠ '\n' := by
  refine SpacedWords.forall_mem h (fun w hw c hc => ?_) fun c htab hlf => ⟨htab, hlf⟩
  have hblank := (isWord_display hwords w hw).2 c hc
  constructor
  · rintro rfl
    exact absurd hblank (by decide)
  · rintro rfl
    exact absurd hblank (by decide)

theorem isFilled_spacedRow (hne : row ≠ []) : isFilled line := by
  rw [isFilled_iff, ← words_eq_nil_iff, SpacedWords.words_eq h (isWord_display hwords)]
  simpa using hne

theorem map_readScalar_words_spacedRow (hcells : ∀ cell ∈ row, cell.IsCell) :
    (words line).map readScalar = row := by
  rw [SpacedWords.words_eq h (isWord_display hwords), List.map_map]
  exact (List.map_congr_left (g := id) fun cell hcell =>
    (hcells cell hcell).readScalar_display).trans (List.map_id row)

end Spaced

theorem readTable_spaced {rows : List (List Value)} {lines : List (List Char)} {text : List Char}
    (hrows : ∀ row ∈ rows, row ≠ [] ∧ ∀ cell ∈ row, cell.IsCell)
    (hwords : ∀ row ∈ rows, ∀ cell ∈ row, cell.IsWord)
    (hspaced : List.Forall₂ SpacedRow rows lines) (hprinted : PrintedLines lines text) :
    readTable text = .ofRows rows := by
  have hall : List.Forall₂ (fun row line => ((row ≠ [] ∧ ∀ cell ∈ row, cell.IsCell) ∧
      ∀ cell ∈ row, cell.IsWord) ∧ SpacedRow row line) rows lines :=
    (List.forall₂_and_left rows lines).2 ⟨fun row hrow => ⟨hrows row hrow, hwords row hrow⟩, hspaced⟩
  have hchars : ∀ line ∈ lines, ∀ c ∈ line, c ≠ '\t' ∧ c ≠ '\n' :=
    forall_mem_of_forall₂ hall fun row line h => not_tab_not_lf_of_mem_spacedRow h.1.2 h.2
  have htab : text.contains '\t' = false := by
    rw [← Bool.not_eq_true, List.contains_iff_mem]
    intro hmem
    rcases hprinted.mem_line_or_mem_end hmem with ⟨line, hline, hc⟩ | h | h
    · exact (hchars line hline _ hc).1 rfl
    · exact absurd h (by decide)
    · exact absurd h (by decide)
  rw [readTable_eq_ofRows_iff hprinted]
  · exact forall_mem_of_forall₂ hall fun row line h => isFilled_spacedRow h.1.2 h.2 h.1.1.1
  · exact fun line hline hlf => (hchars line hline _ hlf).2 rfl
  · refine forall_mem_of_forall₂ hall fun row line h hlast => ?_
    exact absurd (SpacedWords.not_blank_getLast? h.2 (isWord_display h.1.2) _ hlast) (by decide)
  · rw [htab]
    exact hall.imp fun row line h => map_readScalar_words_spacedRow h.1.2 h.2 h.1.1.2

/-! ### Decoding -/

/-- Rows that are printed with tabs come back exactly if no row is blank, and rows of words
come back with any blanks between them. -/
theorem decodeOutput_table_printed {rows : List (List Value)}
    (hrows : ∀ row ∈ rows, row ≠ [] ∧ ∀ cell ∈ row, cell.IsCell) :
    ((∃ row ∈ rows, 2 ≤ row.length) →
      ∀ text : String, PrintedLines (rows.map tabbedRow) text.toList →
        (decodeOutput .table text = .ofRows rows ↔ ∀ row ∈ rows, ¬∀ cell ∈ row, cell = .text "")) ∧
    ((∀ row ∈ rows, ∀ cell ∈ row, cell.IsWord) →
      ∀ (lines : List (List Char)) (text : String), List.Forall₂ SpacedRow rows lines →
        PrintedLines lines text.toList → decodeOutput .table text = .ofRows rows) :=
  ⟨fun hwide _ hprinted => readTable_tabbed hrows hwide hprinted,
    fun hwords _ _ hspaced hprinted => readTable_spaced hrows hwords hspaced hprinted⟩

/-- A text with a space in it, a negative zero and an empty last cell; and a row of one
cell that is empty. -/
def tabbedRows : List (List Value) :=
  [[.text "a b", .int (-5)], [.float (.zero true), .text ""], [.text ""]]

/-- Words beside numbers, and one that starts as a number. -/
def wordRows : List (List Value) := [[.text "x", .float (.zero true), .int 1], [.text "1x"]]

theorem decodeOutput_table_printed_rows :
    decodeOutput .table "a b\t-5\r\n-0.0\t\n\r\n" ≠ .ofRows tabbedRows ∧
      decodeOutput .table "a b\t-5\r\n-0.0\t" = .ofRows (tabbedRows.take 2) ∧
      decodeOutput .table "x\r -0.0\u00a01\n1x\r\n" = .ofRows wordRows := by
  have htabbed : ∀ row ∈ tabbedRows, row ≠ [] ∧ ∀ cell ∈ row, cell.IsCell := by decide
  have hwords : ∀ row ∈ wordRows, row ≠ [] ∧ ∀ cell ∈ row, cell.IsCell := by decide
  refine ⟨?_, ?_, ?_⟩
  · have htext : "a b\t-5\r\n-0.0\t\n\r\n".toList = "a b\t-5".toList ++ '\r' :: '\n' ::
        ("-0.0\t".toList ++ '\n' :: ([] ++ ['\r', '\n'])) := by decide
    have hprinted : PrintedLines (tabbedRows.map tabbedRow) "a b\t-5\r\n-0.0\t\n\r\n".toList := by
      rw [htext, show tabbedRows.map tabbedRow = ["a b\t-5".toList, "-0.0\t".toList, []] by
        decide]
      exact .crlf _ (.lf _ (.crlf _ .nil))
    rw [ne_eq, (decodeOutput_table_printed htabbed).1 (by decide) _ hprinted]
    simp [tabbedRows]
  · have htext : "a b\t-5\r\n-0.0\t".toList =
        "a b\t-5".toList ++ '\r' :: '\n' :: "-0.0\t".toList := by decide
    have hprinted : PrintedLines ((tabbedRows.take 2).map tabbedRow)
        "a b\t-5\r\n-0.0\t".toList := by
      rw [htext, show (tabbedRows.take 2).map tabbedRow = ["a b\t-5".toList, "-0.0\t".toList] by
        decide]
      exact .crlf _ (.last _)
    refine ((decodeOutput_table_printed fun row hrow => htabbed row (List.mem_of_mem_take hrow)).1
      (by decide) _ hprinted).2 ?_
    simp [tabbedRows]
  · have htext : "x\r -0.0\u00a01\n1x\r\n".toList =
        "x\r -0.0\u00a01".toList ++ '\n' :: ("1x".toList ++ ['\r', '\n']) := by decide
    have hspaced : List.Forall₂ SpacedRow wordRows ["x\r -0.0\u00a01".toList, "1x".toList] := by
      refine .cons (.cons _ (show ['\r', ' '] ≠ [] by simp) (by simp [isBlank])
        (.cons _ (show ['\u00a0'] ≠ [] by simp) (by simp [isBlank]) (.last _)))
        (.cons (.last _) .nil)
    refine (decodeOutput_table_printed hwords).2 ?_ _ _ hspaced ?_
    · decide
    · rw [htext]
      exact .lf _ (.crlf _ .nil)

end GoCell
