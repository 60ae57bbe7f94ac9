import GoCell.Proofs.Go.ClauseText
import GoCell.Proofs.Go.EntryPoint
import GoCell.Proofs.Program.Assembly

/-!
The text of a program, section by section. The package section ends in a clause and
the body in no line break, so each of them gets exactly one LF after it. Main result:
cutting the text at its clause gives back the package section, and the other sections
in their order.
-/

namespace GoCell

open Text (trimBreaks isLineBreak)

theorem endLine_eq {text : String} {x : List Char} {c : Char} (h : text.toList = x ++ [c])
    (hc : isLineBreak c = false) : endLine text = text ++ "\n" := by
  have hne : c ≠ '\n' := by
    rintro rfl
    exact absurd hc (by decide)
  rw [endLine, if_neg]
  simpa [h] using hne

/-- A text without a line break at its end gets one. -/
theorem endLine_of_trimBreaks_eq {text : String} (h : trimBreaks text.toList = text.toList) :
    endLine text = text ++ "\n" := by
  rcases Text.eq_nil_or_concat_of_trimBreaks_eq h with hnil | ⟨x, c, htext, hc⟩
  · rw [String.toList_eq_nil_iff.1 hnil]
    rfl
  · exact endLine_eq htext hc

theorem exists_endLine_eq (text : String) : ∃ s, endLine text = text ++ s := by
  unfold endLine
  split
  · exact ⟨"", by simp⟩
  · exact ⟨"\n", rfl⟩

namespace Cell

variable {settings : Settings} {cell : Cell}

theorem endsInClause_packageSection {package : String}
    (h : cell.packageSection settings = .ok package) : Go.EndsInClause package.toList := by
  unfold packageSection at h
  split at h
  · next clause hclause =>
    cases h
    exact Go.endsInClause_of_splitClause hclause
  · obtain ⟨⟨⟩, hname, hpackage⟩ := bind_eq_ok_iff.1 h
    cases hpackage
    exact Go.endsInClause_package (Go.checkName_eq_ok_iff.1 hname)

/-- No line break is left at the end of a body. -/
theorem trimBreaks_bodySection (cell : Cell) :
    trimBreaks cell.bodySection.toList = cell.bodySection.toList := by
  simp only [bodySection]
  generalize (Go.splitClause cell.body).2 = rest
  split
  · rw [Go.wrapMain, String.toList_append,
      show "\n\x7d".toList = ['\n'] ++ ['\x7d'] by decide, ← List.append_assoc]
    exact Text.dropEndWhile_append_cons_of_neg _ [] (by decide)
  · rw [String.toList_ofList, Text.trimBreaks_trimBreaks]

/-- The imports end a line. -/
theorem endsLine_importBlock (imports : List String) :
    Go.EndsLine ((Go.importBlock? imports).getD "").toList := by
  unfold Go.importBlock?
  split
  · exact .inl rfl
  · next specs _ =>
    rw [Option.getD_some, String.toList_append, show ")\n".toList = [')'] ++ ['\n'] by decide,
      ← List.append_assoc]
    exact Go.endsLine_concat _

end Cell

/-- What follows the package clause in the text of a program. -/
def Program.afterClause (p : Program) : String :=
  p.imports.getD "" ++ endLine p.body ++ p.declarations.getD "" ++ p.accessors.getD ""

theorem Program.render_eq (p : Program) (h : Go.EndsInClause p.package.toList) :
    p.render = p.package ++ "\n" ++ p.afterClause := by
  obtain ⟨lead, code, hpackage, -, hstarts, -, htrim⟩ := h
  rcases Text.eq_nil_or_concat_of_trimBreaks_eq htrim with hnil | ⟨x, c, hcode, hc⟩
  · obtain ⟨r, hr⟩ := Go.startsClause_cons hstarts
    exact absurd (hnil.symm.trans hr) (by simp)
  · have hend := endLine_eq (x := lead ++ x) (by rw [hpackage, hcode, List.append_assoc]) hc
    rw [Program.render, hend, Program.afterClause]
    simp [String.append_assoc]

namespace Cell

variable {settings : Settings} {cell : Cell}

theorem generate_eq_ok_iff {code : String} :
    cell.generate settings = .ok code ↔ ∃ p, cell.assemble settings = .ok p ∧ p.render = code := by
  unfold generate
  cases cell.assemble settings with
  | error e => simp [Except.map]
  | ok p => simp [Except.map]

variable {p : Program}

theorem endsInClause_of_assemble (h : cell.assemble settings = .ok p) :
    Go.EndsInClause p.package.toList := by
  obtain ⟨-, hpackage, -⟩ := assemble_eq_ok_iff.1 h
  exact endsInClause_packageSection hpackage

theorem endLine_body (h : cell.assemble settings = .ok p) : endLine p.body = p.body ++ "\n" := by
  obtain ⟨-, -, -, -, -, hbody⟩ := assemble_eq_ok_iff.1 h
  exact endLine_of_trimBreaks_eq (hbody ▸ trimBreaks_bodySection cell)

/-- The text of a program is cut where its package section ends, whatever stands in the other
sections, and so is any text that starts with this section and LF. -/
theorem splitClause_render (h : cell.assemble settings = .ok p) :
    Go.splitClause p.render =
        (some p.package, p.imports.getD "" ++ (p.body ++ "\n") ++ p.declarations.getD "" ++
          p.accessors.getD "") ∧
      ∀ text, Go.splitClause (p.package ++ "\n" ++ text) = (some p.package, text) := by
  have hclause := endsInClause_of_assemble h
  refine ⟨?_, Go.splitClause_append hclause⟩
  rw [p.render_eq hclause, Program.afterClause, endLine_body h]
  exact Go.splitClause_append hclause _

/-- A clause behind a comment and before CRs, a second clause in the body, and a third one in a
text. -/
def clauseCell : Cell :=
  { body := "/* a\r\n*/ package p // b\r\r\npackage q\r\n"
    imports := ["fmt"]
    entryPoint := false
    bindings := [⟨"s", .text "\npackage r"⟩] }

theorem splitClause_render_clauseCell :
    ∃ p, clauseCell.assemble {} = .ok p ∧ p.package = "/* a\r\n*/ package p // b" ∧
      Go.splitClause p.render =
        (some p.package, p.imports.getD "" ++ (p.body ++ "\n") ++ p.declarations.getD "" ++
          p.accessors.getD "") := by
  obtain ⟨p, hp⟩ := exists_eq_ok_of_isSome
    (show (clauseCell.assemble {}).toOption.isSome by decide)
  have hpackage : (clauseCell.assemble {}).toOption.map Program.package =
      some "/* a\r\n*/ package p // b" := by decide
  rw [hp] at hpackage
  exact ⟨p, hp, Option.some.inj hpackage, (splitClause_render hp).1⟩

end Cell

end GoCell
