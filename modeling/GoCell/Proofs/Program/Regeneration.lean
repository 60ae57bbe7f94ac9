import GoCell.Proofs.Program.Rendering

/-!
A generated program is its own program. The clause that was found or written is found
again, the entry point is seen behind the imports, and what follows the clause ends
as the last section was made to end.
-/

namespace GoCell

open Text (trimBreaks isLineBreak)

/-- A text that ends in one LF, after another character than a line break. -/
def EndedOnce (l : List Char) : Prop :=
  ∃ x c, l = x ++ [c, '\n'] ∧ isLineBreak c = false

theorem EndedOnce.append {b : List Char} (h : EndedOnce b) (a : List Char) :
    EndedOnce (a ++ b) := by
  obtain ⟨x, c, rfl, hc⟩ := h
  exact ⟨a ++ x, c, by simp, hc⟩

theorem endedOnce_endLine {text : String} {x : List Char} {c : Char}
    (h : text.toList = x ++ [c]) (hc : isLineBreak c = false) :
    EndedOnce (endLine text).toList :=
  ⟨x, c, by rw [endLine_eq h hc]; simp [h], hc⟩

/-- Cutting off the line breaks and ending the last line leaves such a text as it is. -/
theorem EndedOnce.endLine_trimBreaks {text : String} (h : EndedOnce text.toList) :
    endLine (String.ofList (trimBreaks text.toList)) = text := by
  obtain ⟨x, c, htext, hc⟩ := h
  have htrim : (String.ofList (trimBreaks text.toList)).toList = x ++ [c] := by
    rw [String.toList_ofList, htext]
    exact Text.dropEndWhile_append_cons_of_neg x ['\n'] hc
  rw [endLine_eq htrim hc]
  apply String.toList_injective
  rw [String.toList_append, htrim, htext]
  simp

namespace Cell

variable {settings : Settings} {cell : Cell}

/-! ### Sections -/

theorem hasMain_bodySection (h : cell.entryPoint) : Go.hasMain cell.bodySection := by
  simp only [bodySection, h, Bool.true_and]
  generalize (Go.splitClause cell.body).2 = rest
  split
  · exact Go.hasMain_wrapMain rest
  · next hmain => exact Go.hasMain_trimBreaks (by simpa using hmain)

theorem endedOnce_bodySection (h : cell.entryPoint) :
    EndedOnce (endLine cell.bodySection).toList := by
  rcases Text.eq_nil_or_concat_of_trimBreaks_eq (trimBreaks_bodySection cell) with
    hnil | ⟨x, c, hbody, hc⟩
  · have hmain := hasMain_bodySection h
    rw [String.toList_eq_nil_iff.1 hnil] at hmain
    exact absurd hmain (by decide)
  · exact endedOnce_endLine hbody hc

/-- Lines that are ended one by one end once. -/
theorem endedOnce_join {lines : List String} (hne : lines ≠ [])
    (h : ∀ line ∈ lines, line ≠ "" ∧ Text.OneLine line.toList) :
    EndedOnce (String.join (lines.map (· ++ "\n"))).toList := by
  rcases List.eq_nil_or_concat' lines with rfl | ⟨before, line, rfl⟩
  · exact absurd rfl hne
  · obtain ⟨hline, hone⟩ := h line (by simp)
    rcases Text.eq_nil_or_concat_of_trimBreaks_eq hone.trimBreaks_eq with hnil | ⟨x, c, hx, hc⟩
    · exact absurd (String.toList_eq_nil_iff.1 hnil) hline
    · have hlast : EndedOnce (line ++ "\n").toList := ⟨x, c, by simp [hx], hc⟩
      have := hlast.append (String.join (before.map (· ++ "\n"))).toList
      simpa using this

/-- A section of declarations ends with the last of them. -/
theorem endedOnce_declarationsSection {columns : List Columns} {bs : List Binding} {text : String}
    (h : declarationsSection settings columns bs = .ok (some text)) : EndedOnce text.toList := by
  obtain ⟨lines, hlines, htext⟩ := declarationsSection_eq_ok_iff.1 h
  have hline : ∀ line ∈ lines, line ≠ "" ∧ Text.OneLine line.toList := by
    refine forall_mem_of_forall₂ hlines fun b line hline => ?_
    have hdeclared := declareAs_of_declaration hline
    obtain ⟨-, text, -, rfl⟩ := Go.declareAs_eq_ok_iff.1 hdeclared
    exact ⟨by simp, Go.oneLine_declareAs hdeclared⟩
  cases hlines with
  | nil => cases htext
  | cons _ _ =>
      obtain rfl := Option.some.inj htext
      exact endedOnce_join (by simp) hline

/-- A section of accessors ends with the last function. -/
theorem endedOnce_accessors {cs : List Columns} {text : String}
    (h : Table.accessors? cs = .ok (some text)) : EndedOnce text.toList := by
  obtain ⟨-, htext⟩ := Table.accessors?_eq_ok_iff.1 h
  rcases List.eq_nil_or_concat' cs with rfl | ⟨before, c, rfl⟩
  · cases htext
  · rw [if_neg (by simp)] at htext
    obtain rfl := Option.some.inj htext
    have hbrace : EndedOnce "\x7d\n".toList := ⟨[], '\x7d', by decide, by decide⟩
    have haccessor : EndedOnce (Table.accessor c).toList := by
      rw [Table.accessor, String.toList_append]
      exact hbrace.append _
    have := haccessor.append (Table.lookup ++ String.join (before.map fun c =>
      Table.header c ++ Table.accessor c) ++ Table.header c).toList
    simpa [String.append_assoc] using this

variable {p : Program}

/-! ### Programs -/

theorem endedOnce_afterClause (hmain : cell.entryPoint) (h : cell.assemble settings = .ok p) :
    EndedOnce p.afterClause.toList := by
  obtain ⟨-, -, hdeclarations, haccessors, -, hbody⟩ := assemble_eq_ok_iff.1 h
  have hfront : EndedOnce (p.imports.getD "" ++ endLine p.body).toList := by
    rw [String.toList_append, hbody]
    exact (endedOnce_bodySection hmain).append _
  have hmiddle : EndedOnce (p.imports.getD "" ++ endLine p.body ++ p.declarations.getD "").toList := by
    cases hd : p.declarations with
    | none => simpa using hfront
    | some text =>
        rw [hd] at hdeclarations
        rw [String.toList_append]
        exact (endedOnce_declarationsSection hdeclarations).append _
  cases ha : p.accessors with
  | none => simpa [Program.afterClause, ha] using hmiddle
  | some text =>
      rw [ha] at haccessors
      rw [Program.afterClause, ha, String.toList_append]
      exact (endedOnce_accessors haccessors).append _

theorem hasMain_afterClause (hmain : cell.entryPoint) (h : cell.assemble settings = .ok p) :
    Go.hasMain p.afterClause := by
  obtain ⟨-, -, -, -, himports, hbody⟩ := assemble_eq_ok_iff.1 h
  obtain ⟨s, hs⟩ := exists_endLine_eq p.body
  have hlines : Go.EndsLine (p.imports.getD "").toList := by
    rw [himports]
    exact endsLine_importBlock cell.imports
  have := Go.hasMain_append (c := s ++ p.declarations.getD "" ++ p.accessors.getD "")
    (hbody ▸ hasMain_bodySection hmain) hlines
  rw [Program.afterClause, hs]
  simpa [String.append_assoc] using this

/-- A generated program, taken as a body, is generated again as it is. -/
theorem generate_generate {settings' : Settings} {code : String} (hmain : cell.entryPoint = true)
    (h : cell.generate settings = .ok code) :
    generate settings' { body := code, entryPoint := true } = .ok code := by
  obtain ⟨p, hp, rfl⟩ := generate_eq_ok_iff.1 h
  have hclause := endsInClause_of_assemble hp
  have hrender := p.render_eq hclause
  have hsplit := Go.splitClause_append hclause p.afterClause
  rw [← hrender] at hsplit
  -- The text is cut at the same clause, and what follows has its entry point already.
  let again : Program :=
    { package := p.package, body := String.ofList (trimBreaks p.afterClause.toList) }
  rw [generate_eq_ok_iff]
  refine ⟨again, assemble_eq_ok_iff.2 ⟨rfl, ?_, rfl, rfl, rfl, ?_⟩, ?_⟩
  · simp only [packageSection, hsplit, again]
  · simp only [bodySection, hsplit, hasMain_afterClause hmain hp]
    rfl
  · have hrest : again.afterClause = p.afterClause := by
      simpa [Program.afterClause, again] using (endedOnce_afterClause hmain hp).endLine_trimBreaks
    rw [hrender, ← hrest]
    exact again.render_eq hclause

/-- A body with a comment, a clause that CR LF ends, and no entry point. -/
def commentedCell : Cell :=
  { body := "/* a */ package p\r\n\nx := 1\r\n"
    imports := ["fmt"]
    bindings := [⟨"s", .text "a"⟩] }

def commentedProgram : String :=
  "/* a */ package p\nimport (\n\t\"fmt\"\n)\nfunc main() \x7b\n\nx := 1\n\x7d\nvar s string = \"a\"\n"

theorem generate_generate_commentedProgram :
    generate { strict := true } commentedCell = .ok commentedProgram ∧
      generate {} { body := commentedProgram, entryPoint := true } = .ok commentedProgram := by
  have h : generate { strict := true } commentedCell = .ok commentedProgram :=
    eq_ok_of_toOption (by decide)
  exact ⟨h, generate_generate rfl h⟩

end Cell

end GoCell
