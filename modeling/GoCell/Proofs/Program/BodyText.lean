import GoCell.Proofs.Program.Rendering

/-!
What becomes of the body of a cell. A program has it in two pieces, the clause and
what follows it, and both stand in the source text as they were written. What is left
out between them and at the end of the body is line breaks.
-/

namespace GoCell

open Text (trimBreaks isLineBreak)

namespace Go

/-- Whether the first code of a text is a package clause. -/
def HasClause (text : List Char) : Prop := StartsClause (skipLead .between text)

/-- Between the clause that is cut off a body and the rest is the end of a line. -/
theorem exists_splitClause_eq {body : String} (h : HasClause body.toList) :
    ∃ clause rest t, splitClause body = (some clause, rest) ∧
      body.toList = clause.toList ++ t ++ rest.toList ∧ Text.LineEnd t := by
  obtain ⟨lead, hbody⟩ := skipLead_suffix .between body.toList
  rw [HasClause] at h
  generalize hcode : skipLead .between body.toList = code at hbody h
  rw [← hbody] at hcode
  have hsplit := splitClause_eq_some hcode h
  rw [hbody, String.ofList_toList] at hsplit
  obtain ⟨t, ht, hend⟩ := Text.exists_lineEnd code
  refine ⟨_, _, t, hsplit, ?_, hend⟩
  rw [String.toList_ofList, String.toList_ofList, ← hbody, List.append_assoc, List.append_assoc,
    ← List.append_assoc _ t, ← ht]

theorem fst_splitClause_eq_none_iff {body : String} :
    (splitClause body).1 = none ↔ ¬HasClause body.toList := by
  constructor
  · intro hnone hclause
    obtain ⟨clause, rest, t, hsplit, -⟩ := exists_splitClause_eq hclause
    rw [hsplit] at hnone
    cases hnone
  · intro hclause
    rw [splitClause_eq_none hclause]

end Go

namespace Cell

/-- Whether the body of a cell has to be made the body of `main`. -/
def needsMain (cell : Cell) : Bool :=
  cell.entryPoint && !Go.hasMain (Go.splitClause cell.body).2

/-- What stands before the body of a cell in its section. -/
def opening (cell : Cell) : String := if cell.needsMain then "func main() \x7b\n" else ""

/-- What stands after the body of a cell in its section. -/
def closing (cell : Cell) : String := if cell.needsMain then "\n\x7d" else ""

/-- A program keeps a text `kept` of the body of a cell: this text and the clause are the
body but for line breaks, and nothing is put into them in the source text. -/
structure KeepsBody (cell : Cell) (p : Program) (kept : String) : Prop where
  section_eq : p.body = cell.opening ++ kept ++ cell.closing
  body_eq_of_clause : Go.HasClause cell.body.toList → ∃ t₁ t₂,
    cell.body.toList = p.package.toList ++ t₁ ++ kept.toList ++ t₂ ∧
      Text.LineEnd t₁ ∧ ∀ c ∈ t₂, isLineBreak c
  body_eq : ¬ Go.HasClause cell.body.toList → ∃ t₂,
    cell.body.toList = kept.toList ++ t₂ ∧ ∀ c ∈ t₂, isLineBreak c
  render_eq : p.render = p.package ++ "\n" ++ p.imports.getD "" ++ cell.opening ++ kept ++
    cell.closing ++ "\n" ++ p.declarations.getD "" ++ p.accessors.getD ""

variable {settings : Settings} {cell : Cell} {p : Program}

theorem bodySection_eq (cell : Cell) :
    cell.bodySection = cell.opening ++
      String.ofList (trimBreaks (Go.splitClause cell.body).2.toList) ++ cell.closing := by
  rw [bodySection, opening, closing, ← needsMain]
  split
  · rfl
  · simp

/-- The text of a program around its body. -/
theorem render_eq_around_body (h : cell.assemble settings = .ok p) :
    p.render = p.package ++ "\n" ++ p.imports.getD "" ++ p.body ++ "\n" ++
      p.declarations.getD "" ++ p.accessors.getD "" := by
  rw [p.render_eq (endsInClause_of_assemble h), Program.afterClause, endLine_body h]
  simp only [String.append_assoc]

/-- Nothing of a body is lost, altered or moved but line breaks after its clause and at its end. -/
theorem exists_keepsBody (h : cell.assemble settings = .ok p) :
    ∃ kept, KeepsBody cell p kept := by
  obtain ⟨-, hpackage, -, -, -, hbody⟩ := assemble_eq_ok_iff.1 h
  rw [bodySection_eq] at hbody
  obtain ⟨t₂, hrest, ht₂⟩ :=
    Text.exists_dropEndWhile_append isLineBreak (Go.splitClause cell.body).2.toList
  rw [← trimBreaks] at hrest
  refine ⟨String.ofList (trimBreaks (Go.splitClause cell.body).2.toList), hbody, ?_, ?_, ?_⟩
  · intro hclause
    obtain ⟨clause, rest, t₁, hsplit, hcut, ht₁⟩ := Go.exists_splitClause_eq hclause
    rw [hsplit] at hrest
    have hname : p.package = clause := by
      rw [packageSection, hsplit] at hpackage
      exact (Except.ok.inj hpackage).symm
    refine ⟨t₁, t₂, ?_, ht₁, ht₂⟩
    rw [hcut, hname, hsplit, String.toList_ofList, List.append_assoc _ _ t₂, ← hrest]
  · intro hclause
    have hsplit := Go.splitClause_eq_none hclause
    rw [hsplit] at hrest
    exact ⟨t₂, by rw [hsplit, String.toList_ofList, ← hrest], ht₂⟩
  · rw [render_eq_around_body h, hbody]
    simp only [String.append_assoc]

/-- A body with a comment, a clause that CRs and an LF end, and line breaks at its end. -/
def spacedCell : Cell :=
  { body := "// a\r\npackage p\r\r\n\r\n é\r\n\n"
    imports := ["fmt"] }

theorem exists_keepsBody_spacedCell :
    ∃ p, spacedCell.assemble {} = .ok p ∧ ∃ kept, KeepsBody spacedCell p kept := by
  obtain ⟨p, hp⟩ := exists_eq_ok_of_isSome
    (show (spacedCell.assemble {}).toOption.isSome by decide)
  exact ⟨p, hp, exists_keepsBody hp⟩

end Cell

end GoCell
