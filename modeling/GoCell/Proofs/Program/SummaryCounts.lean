import GoCell.Program.Summary
import GoCell.Proofs.Go.ClauseLine
import GoCell.Proofs.Program.DeclarationLines
import GoCell.Proofs.Table.AccessorCount

/-!
What the summary of a program says of the cell that it is made from. The variables are the
bindings. The clause is that of the program, unless a comment ends behind the package name, and
the tables are those of the cell, unless a column name holds the text that they are counted by.
-/

namespace GoCell

open Text (afterLast? dropEndWhile isBlank trim)

theorem Program.clauseText_eq (p : Program) :
    p.clauseText =
      String.ofList (Go.uncommented ((Text.lines p.package.toList).getLast?.getD [])) := by
  rw [Go.uncommented_eq_elim_trim, clauseText]
  cases afterLast? ['*', '/'] (trim ((Text.lines p.package.toList).getLast?.getD [])) <;> rfl

namespace Cell

variable {settings : Settings} {cell : Cell} {p : Program}

/-- How often the column names of a cell hold the text that tables are counted by. -/
def strayMarks (cell : Cell) : Nat := (cell.tables.2.map Table.strayMarks).sum

theorem strayMarks_eq_zero_iff :
    cell.strayMarks = 0 ↔ ∀ c ∈ cell.tables.2, ∀ name ∈ c.names,
      ¬ "_helper(row int".toList <:+: name.toList := by
  rw [strayMarks, List.sum_eq_zero_iff_forall_eq_nat, List.forall_mem_map]
  exact forall₂_congr fun _ _ => Table.strayMarks_eq_zero_iff

/-- The summary of a program with a clause of these parts. -/
structure Summarizes (cell : Cell) (p : Program) (parts : Go.ClauseParts p.package.toList) :
    Prop where
  code_eq : Go.skipLead .between p.package.toList =
    "package".toList ++ parts.gap ++ parts.name ++ parts.trail
  summary_eq : p.summary =
    String.ofList ((afterLast? ['*', '/'] parts.trail).elim
        ("package".toList ++ parts.gap ++ parts.name ++ dropEndWhile isBlank parts.trail) trim) ++
      ", " ++ counted cell.bindings.length "var" ++
      (if cell.tables.2.isEmpty then ""
        else ", " ++ counted (cell.tables.2.length + cell.strayMarks) "table")
  clause_isPrefix : ¬ ['*', '/'] <:+: parts.trail →
    "package".toList ++ parts.gap ++ parts.name <+: p.summary.toList
  strayMarks_eq_zero_iff : cell.strayMarks = 0 ↔ ∀ c ∈ cell.tables.2, ∀ name ∈ c.names,
    ¬ "_helper(row int".toList <:+: name.toList

theorem length_lines_declarations (h : cell.assemble settings = .ok p) :
    (Text.lines (p.declarations.getD "").toList).length = cell.bindings.length := by
  obtain ⟨-, -, hdeclarations, -⟩ := assemble_eq_ok_iff.1 h
  obtain ⟨lines, hlines, honeLine, hsection⟩ := exists_lines_of_declarationsSection hdeclarations
  have hlength := hlines.length_eq
  rw [tables_bindings, List.length_map] at hlength
  rw [hsection, Text.lines_flatMap honeLine, List.length_map, hlength]

theorem occurrences_accessors (h : cell.assemble settings = .ok p) :
    Text.occurrences "_helper(row int".toList (p.accessors.getD "").toList =
      cell.tables.2.length + cell.strayMarks := by
  obtain ⟨-, -, -, haccessors, -⟩ := assemble_eq_ok_iff.1 h
  exact Table.occurrences_accessors? haccessors

theorem summary_eq_append (h : cell.assemble settings = .ok p) :
    p.summary = p.clauseText ++ ", " ++ counted cell.bindings.length "var" ++
      (if cell.tables.2.isEmpty then ""
        else ", " ++ counted (cell.tables.2.length + cell.strayMarks) "table") := by
  rw [Program.summary, length_lines_declarations h, occurrences_accessors h]
  cases htables : cell.tables.2 with
  | nil =>
      have hstray : cell.strayMarks = 0 := by
        rw [strayMarks, htables]
        rfl
      rw [hstray]
      rfl
  | cons c cs => rw [List.length_cons, if_neg (by omega), List.isEmpty_cons, if_neg (by simp)]

/-- The summary counts the bindings, and it counts the tables and once more each place where a
column name holds what they are counted by. It shows the clause of the program up to the end of
its line, or, where a comment ends behind the name, what stands after the last one. -/
theorem exists_summarizes (h : cell.assemble settings = .ok p) :
    ∃ parts : Go.ClauseParts p.package.toList, cell.Summarizes p parts := by
  obtain ⟨parts, hpasses, hcode⟩ := Go.exists_clauseParts (endsInClause_of_assemble h)
  have hclause := p.clauseText_eq
  rw [parts.uncommented_getLast? hpasses, parts.uncommented_code] at hclause
  have hsummary := summary_eq_append h
  rw [hclause] at hsummary
  refine ⟨parts, hcode, hsummary, fun hmark => ?_, strayMarks_eq_zero_iff⟩
  rw [hsummary, Text.afterLast?_eq_none_iff.2 hmark, Option.elim_none]
  simp only [String.toList_append, String.toList_ofList, List.append_assoc,
    List.prefix_append_right_inj]
  exact List.prefix_append _ _

/-! A comment before the name and one that is open behind it, and a column name that holds what
tables are counted by. -/

def strayMarkCell : Cell :=
  { body := "/* a */ package p // b\nx := 1"
    bindings := [⟨"n", .int 1⟩]
    columns := [⟨"t", ["_helper(row int"]⟩] }

theorem summary_strayMarkCell :
    ∃ p, strayMarkCell.assemble {} = .ok p ∧ p.summary = "package p // b, 1 var, 2 tables" := by
  obtain ⟨p, hp⟩ := exists_eq_ok_of_isSome
    (show (strayMarkCell.assemble {}).toOption.isSome by decide)
  have hclause : (strayMarkCell.assemble {}).toOption.map Program.clauseText =
      some "package p // b" := by decide
  have hstray : strayMarkCell.strayMarks = 1 := by decide
  rw [hp] at hclause
  refine ⟨p, hp, ?_⟩
  rw [summary_eq_append hp, Option.some.inj hclause, hstray]
  decide

theorem exists_summarizes_strayMarkCell :
    ∃ p, strayMarkCell.assemble {} = .ok p ∧ p.summary = "package p // b, 1 var, 2 tables" ∧
      ∃ parts : Go.ClauseParts p.package.toList, strayMarkCell.Summarizes p parts := by
  obtain ⟨p, hp, hsummary⟩ := summary_strayMarkCell
  exact ⟨p, hp, hsummary, exists_summarizes hp⟩

/-- A clause with a comment that ends behind the name. -/
def trailedCell : Cell := { body := "package p /* c */\nx := 1" }

/-- Not every summary begins with the clause, and not every one ends in the number of tables. -/
theorem not_forall_summary :
    (¬ ∀ (settings : Settings) (cell : Cell) (p : Program), cell.assemble settings = .ok p →
      "package".toList <+: p.summary.toList) ∧
    ¬ ∀ (settings : Settings) (cell : Cell) (p : Program), cell.assemble settings = .ok p →
      cell.tables.2 ≠ [] →
      (", " ++ counted cell.tables.2.length "table").toList <:+ p.summary.toList := by
  constructor
  · intro h
    obtain ⟨p, hp⟩ := exists_eq_ok_of_isSome
      (show (trailedCell.assemble {}).toOption.isSome by decide)
    have hsummary : (trailedCell.assemble {}).toOption.map Program.summary =
        some ", 0 vars" := by decide
    rw [hp] at hsummary
    have hstarts := h _ _ p hp
    rw [Option.some.inj hsummary] at hstarts
    exact absurd hstarts (by decide)
  · intro h
    obtain ⟨p, hp, hsummary⟩ := summary_strayMarkCell
    have hsuffix := h _ _ p hp (by decide)
    rw [hsummary] at hsuffix
    exact absurd hsuffix (by decide)

end Cell

end GoCell
