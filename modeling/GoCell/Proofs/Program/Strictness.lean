import GoCell.Proofs.Program.Assembly

/-!
The strict rule only rejects. It looks at a value and may refuse it, but the type it
gives is the type of the loose rule, so a cell is refused or becomes the program, or
meets the error, that it would without the rule.
-/

namespace GoCell.Cell

variable (settings : Settings)

/-- Whether an error is the refusal of one of some bindings by the strict rule. -/
def IsRefusal (bs : List Binding) (e : GenerationError) : Prop :=
  ∃ b ∈ bs, ∃ o, Go.obstacle? b.value = some o ∧ e = .unsupported b.value o

theorem declaration_strict (columns : List Columns) {bs : List Binding} {b : Binding}
    (hb : b ∈ bs) :
    EqUnless (IsRefusal bs) (declaration { settings with strict := true } columns b)
      (declaration { settings with strict := false } columns b) := by
  rw [declaration_eq, declaration_eq]
  split
  · next o ho =>
    rw [strictObstacle?, Option.ite_none_right_eq_some] at ho
    exact .inr ⟨_, ⟨b, hb, o, ho.2, rfl⟩, rfl⟩
  · exact .inl rfl

theorem declarationsSection_strict (columns : List Columns) (bs : List Binding) :
    EqUnless (IsRefusal bs) (declarationsSection { settings with strict := true } columns bs)
      (declarationsSection { settings with strict := false } columns bs) := by
  by_cases hne : bs = []
  · subst hne
    exact .inl rfl
  · rw [declarationsSection_of_ne_nil hne, declarationsSection_of_ne_nil hne]
    exact (EqUnless.mapM fun b hb => declaration_strict settings columns hb).bind fun _ => .inl rfl

/-- Names, columns and the package are looked at in the same way under both rules, and at
the same place. -/
theorem assemble_strict_eqUnless (cell : Cell) :
    EqUnless (IsRefusal cell.tables.1) (cell.assemble { settings with strict := true })
      (cell.assemble { settings with strict := false }) := by
  cases hsession : cell.wantsSession with
  | true =>
      rw [assemble_of_wantsSession hsession, assemble_of_wantsSession hsession]
      exact .inl rfl
  | false =>
      -- The name of a package does not depend on the rule.
      have hpackage : cell.packageSection { settings with strict := true } =
        cell.packageSection { settings with strict := false } := rfl
      rw [assemble_of_not_wantsSession hsession, assemble_of_not_wantsSession hsession, hpackage]
      exact EqUnless.bind (.inl rfl) fun package =>
        (declarationsSection_strict settings _ _).bind fun declarations => .inl rfl

/-- Under the strict rule a cell becomes the same program, or meets the same error, as
under the loose one, or else a value is refused that has no single Go type; so the text
of a program never depends on the rule. -/
theorem strict_only_rejects (cell : Cell) :
    (cell.assemble { settings with strict := true } =
        cell.assemble { settings with strict := false } ∨
      ∃ b ∈ cell.tables.1, ∃ o, Go.obstacle? b.value = some o ∧
        cell.assemble { settings with strict := true } = .error (.unsupported b.value o)) ∧
    ∀ text, cell.generate { settings with strict := true } = .ok text →
      cell.generate { settings with strict := false } = .ok text := by
  have h := assemble_strict_eqUnless settings cell
  refine ⟨?_, fun text htext => (h.map Program.render).eq_ok htext⟩
  rcases h with heq | ⟨e, ⟨b, hb, o, ho, rfl⟩, herror⟩
  · exact .inl heq
  · exact .inr ⟨b, hb, o, ho, herror⟩

/-- A table of texts under its header, one with nothing else than a header, and an
empty one whose columns are given. -/
def headedTables : Cell :=
  { headers := true
    columns := [⟨"e", ["x"]⟩]
    bindings := [
      ⟨"t", .seq [.seq [.text "a"], .seq [.text "1"]]⟩,
      ⟨"h", .seq [.seq [.text "a", .text "b"]]⟩,
      ⟨"e", .seq []⟩] }

theorem strict_only_rejects_headedTables :
    ∃ text, headedTables.generate { strict := true } = .ok text ∧
      headedTables.generate { strict := false } = .ok text := by
  obtain ⟨text, htext⟩ := exists_eq_ok_of_isSome
    (show (headedTables.generate { strict := true }).toOption.isSome by decide)
  exact ⟨text, htext, (strict_only_rejects {} headedTables).2 text htext⟩

end GoCell.Cell
