import GoCell.Proofs.Go.DeclarationReader
import GoCell.Proofs.Program.Assembly

/-!
The declarations of a program, line by line. Whatever texts, symbols and names a cell
holds, its bindings are declared in as many lines, and each line is one declaration: of
the name of the binding, under its type, with a literal that has as many elements as
the value.
-/

namespace GoCell

namespace Cell

/-- A binding as it is declared: without its header row, where headers are taken. -/
def declared (cell : Cell) (b : Binding) : Binding :=
  if cell.headers then (Table.takeHeader cell.columns b).1 else b

/-- A line declares a binding of a cell and nothing else. -/
structure DeclaredBy (cell : Cell) (b : Binding) (line : List Char) : Prop where
  line_ne_nil : line ≠ []
  reads : ∃ lit, Go.readDeclaration? line =
      some ⟨b.name, declaredTy cell.tables.2 (cell.declared b), lit⟩ ∧
    lit.HasFormOf (declaredTy cell.tables.2 (cell.declared b)) ∧
    lit.HasSizeOf (cell.declared b).value

variable {settings : Settings} {cell : Cell} {p : Program}

theorem tables_bindings (cell : Cell) : cell.tables.1 = cell.bindings.map cell.declared := by
  rw [tables]
  split
  · next hheaders =>
    refine List.map_congr_left fun b _ => ?_
    rw [declared, if_pos hheaders]
  · next hheaders =>
    have hself : cell.declared = id := by
      funext b
      rw [declared, if_neg hheaders, id]
    rw [hself, List.map_id]

theorem name_declared (cell : Cell) (b : Binding) : (cell.declared b).name = b.name := by
  unfold declared Table.takeHeader
  split
  · split
    · rfl
    · split <;> rfl
  · rfl

/-- Only text is declared as a table. -/
theorem base_declaredTy {columns : List Columns} {b : Binding}
    (h : (declaredTy columns b).shape = .table) : (declaredTy columns b).base = .string := by
  unfold declaredTy at h ⊢
  split at h
  · next hempty => rw [if_pos hempty]
  · next hempty =>
    rw [if_neg hempty]
    cases hv : b.value with
    | seq items =>
        rw [hv, Go.looseTy] at h
        rw [Go.looseTy]
        split at h
        · next htable => rw [if_pos htable]
        · cases h
    | _ =>
        rw [hv] at h
        cases h

theorem declaredBy_of_declaration {b : Binding} {line : String}
    (h : declaration settings cell.tables.2 (cell.declared b) = .ok line) :
    cell.DeclaredBy b line.toList := by
  have hdeclared := declareAs_of_declaration h
  obtain ⟨-, text, htext, hline⟩ := Go.declareAs_eq_ok_iff.1 hdeclared
  refine ⟨by rw [hline]; simp, _, ?_, Go.hasFormOf_ofValue htext base_declaredTy,
    Go.hasSizeOf_ofValue htext⟩
  rw [Go.readDeclaration?_declareAs hdeclared, name_declared]

/-- Cut at LF, the section is the declarations of the bindings, in order. -/
theorem exists_declarationLines (h : cell.assemble settings = .ok p) :
    ∃ lines : List String,
      (p.declarations.getD "").toList.splitOn '\n' = lines.map String.toList ++ [[]] ∧
      List.Forall₂ (fun b line => declaration settings cell.tables.2 (cell.declared b) = .ok line)
        cell.bindings lines := by
  obtain ⟨-, -, hdeclarations, -⟩ := assemble_eq_ok_iff.1 h
  obtain ⟨lines, hlines, honeLine, hsection⟩ := exists_lines_of_declarationsSection hdeclarations
  rw [tables_bindings, List.forall₂_map_left_iff] at hlines
  refine ⟨lines, ?_, hlines⟩
  rw [hsection]
  exact Text.splitOn_flatMap_lf fun line hline => (honeLine line hline).lf_not_mem

/-- Every binding of a cell is declared by a line of its own, in order, and there is no
other line. -/
theorem declarations_lines (h : cell.assemble settings = .ok p) (hne : cell.bindings ≠ []) :
    ∃ text lines, p.declarations = some text ∧ text.toList.splitOn '\n' = lines ++ [[]] ∧
      List.Forall₂ cell.DeclaredBy cell.bindings lines := by
  obtain ⟨lines, hsplit, hlines⟩ := exists_declarationLines h
  obtain ⟨text, htext⟩ : ∃ text, p.declarations = some text := by
    obtain ⟨-, -, hdeclarations, -⟩ := assemble_eq_ok_iff.1 h
    obtain ⟨_, -, htext⟩ := declarationsSection_eq_ok_iff.1 hdeclarations
    rw [tables_bindings, if_neg (by simpa using hne)] at htext
    exact ⟨_, htext⟩
  rw [htext] at hsplit
  refine ⟨text, lines.map String.toList, htext, hsplit, ?_⟩
  rw [List.forall₂_map_right_iff]
  exact hlines.imp fun _ _ hline => declaredBy_of_declaration hline

/-- Texts, symbols and nested sequences with what ends strings, elements and lines. -/
def hostileCell : Cell :=
  { headers := true
    bindings := [
      ⟨"s", .text "\"\nvar x int = 1 //"⟩,
      ⟨"xs", .seq [.int 1, .symbol "\",\"b", .seq [.text "\x7d", .nil]]⟩,
      ⟨"t", .seq [.seq [.text "h"], .seq [.text ", ", .seq [.bool true]], .symbol "\x7d, []string\x7b"]⟩] }

theorem declarations_lines_hostileCell :
    hostileCell.bindings ≠ [] ∧ ∃ p, hostileCell.assemble {} = .ok p ∧
      ∃ text lines, p.declarations = some text ∧ text.toList.splitOn '\n' = lines ++ [[]] ∧
        List.Forall₂ hostileCell.DeclaredBy hostileCell.bindings lines := by
  have hne : hostileCell.bindings ≠ [] := nofun
  obtain ⟨p, hp⟩ := exists_eq_ok_of_isSome
    (show (hostileCell.assemble {}).toOption.isSome by decide)
  exact ⟨hne, p, hp, declarations_lines hp hne⟩

end Cell

end GoCell
