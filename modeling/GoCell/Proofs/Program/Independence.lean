import GoCell.Proofs.Program.DeclarationLines
import GoCell.Proofs.Program.Failure
import GoCell.Proofs.Table.TakenHeader
import Mathlib.Data.List.Nodup

/-!
Bindings do not see each other. The columns that are taken from a header are known to all
declarations of a cell, but they bear the name of the binding whose header it was; so where
names are distinct, a binding is declared as it would be if it were the only one, and the
cell fails as the first binding does that fails on its own.
-/

namespace GoCell.Cell

variable {settings : Settings} {cell : Cell}

/-- A cell with one binding in the place of all its own. -/
def only (cell : Cell) (b : Binding) : Cell := { cell with bindings := [b] }

/-- Columns are given with a cell, or taken from the header of one of its bindings. -/
theorem mem_columns_iff {c : Columns} :
    c ∈ cell.tables.2 ↔ c ∈ cell.columns ∨
      cell.headers = true ∧ ∃ b ∈ cell.bindings, (Table.takeHeader cell.columns b).2 = some c := by
  rw [tables]
  split
  · next hheaders => simp [Table.takeHeaders, hheaders]
  · next hheaders => simp [hheaders]

theorem table_of_snd_takeHeader {known : List Columns} {b : Binding} {c : Columns}
    (h : (Table.takeHeader known b).2 = some c) : c.table = b.name :=
  table_of_takeHeader (Prod.ext rfl h)

/-- What is known of a name does not depend on the bindings of other names. -/
theorem exists_columns_only_iff {b : Binding} (hnames : (cell.bindings.map Binding.name).Nodup)
    (hb : b ∈ cell.bindings) :
    (∃ c ∈ (cell.only b).tables.2, c.table = b.name) ↔ ∃ c ∈ cell.tables.2, c.table = b.name := by
  constructor
  · rintro ⟨c, hc, hname⟩
    refine ⟨c, ?_, hname⟩
    rw [mem_columns_iff] at hc ⊢
    refine hc.imp_right fun ⟨hheaders, a, ha, htaken⟩ => ⟨hheaders, a, ?_, htaken⟩
    rwa [List.mem_singleton.1 ha]
  · rintro ⟨c, hc, hname⟩
    refine ⟨c, ?_, hname⟩
    rw [mem_columns_iff] at hc ⊢
    refine hc.imp_right fun ⟨hheaders, a, ha, htaken⟩ => ⟨hheaders, a, ?_, htaken⟩
    -- The columns come from a binding of this name, and there is only one.
    have hab : a.name = b.name := (table_of_snd_takeHeader htaken).symm.trans hname
    rw [List.inj_on_of_nodup_map hnames ha hb hab]
    exact List.mem_singleton_self b

theorem declaration_only {b : Binding} (hnames : (cell.bindings.map Binding.name).Nodup)
    (hb : b ∈ cell.bindings) :
    declaration settings (cell.only b).tables.2 ((cell.only b).declared b) =
      declaration settings cell.tables.2 (cell.declared b) := by
  have hempty : isEmptyTable (cell.only b).tables.2 (cell.declared b) =
      isEmptyTable cell.tables.2 (cell.declared b) := by
    rw [Bool.eq_iff_iff, isEmptyTable_iff, isEmptyTable_iff, IsEmptyTable, IsEmptyTable,
      name_declared, exists_columns_only_iff hnames hb]
  have hdeclared : (cell.only b).declared b = cell.declared b := rfl
  rw [hdeclared, declaration, hempty, declaration]

/-- Names that are declared serve as names of tables. -/
theorem isIdentifier_of_mem_columns {declarations : Option String}
    (htables : ∀ c ∈ cell.columns, Go.isIdentifier c.table)
    (h : declarationsSection settings cell.tables.2 cell.tables.1 = .ok declarations) :
    ∀ c ∈ cell.tables.2, Go.isIdentifier c.table := by
  intro c hc
  rcases mem_columns_iff.1 hc with hc | ⟨-, b, hb, htaken⟩
  · exact htables c hc
  · obtain ⟨lines, hlines, -⟩ := declarationsSection_eq_ok_iff.1 h
    rw [tables_bindings, List.forall₂_map_left_iff] at hlines
    obtain ⟨i, hi⟩ := List.mem_iff_getElem?.1 hb
    obtain ⟨line, -, hline⟩ := exists_getElem?_of_forall₂ hlines hi
    obtain ⟨hname, -⟩ := Go.declareAs_eq_ok_iff.1 (declareAs_of_declaration hline)
    rwa [table_of_snd_takeHeader htaken, ← name_declared cell b]

/-- What a cell needs besides its bindings in order to be made into a program. -/
structure IsFrame (settings : Settings) (cell : Cell) : Prop where
  session : ¬cell.AsksSession
  package : ∀ name, ¬PackageFails settings cell name
  tables : ∀ c ∈ cell.columns, Go.isIdentifier c.table = true

/-- In a frame the bindings alone decide whether there is a program. -/
theorem IsFrame.exists_assemble_eq (h : IsFrame settings cell) :
    ∃ program : Option String → Program, (∀ text, (program text).declarations = text) ∧
      cell.assemble settings =
        (declarationsSection settings cell.tables.2 cell.tables.1).map program := by
  have hsession : cell.wantsSession = false := by
    rw [Bool.eq_false_iff, ne_eq, wantsSession_iff]
    exact h.session
  obtain ⟨package, hpackage⟩ := exists_packageSection_eq_ok_iff.2 h.package
  obtain ⟨accessors, haccessors⟩ : ∃ accessors, ∀ text,
      declarationsSection settings cell.tables.2 cell.tables.1 = .ok text →
        Table.accessors? cell.tables.2 = .ok accessors :=
    ⟨_, fun text htext =>
      Table.accessors?_eq_ok_iff.2 ⟨isIdentifier_of_mem_columns h.tables htext, rfl⟩⟩
  refine ⟨fun declarations =>
    { package, imports := Go.importBlock? cell.imports, body := cell.bodySection,
      declarations, accessors }, fun _ => rfl, ?_⟩
  rw [assemble_of_not_wantsSession hsession, hpackage]
  cases htext : declarationsSection settings cell.tables.2 cell.tables.1 with
  | error e => rfl
  | ok text =>
      show (Table.accessors? cell.tables.2 >>= _) = _
      rw [haccessors text htext]
      rfl

theorem declarationsSection_singleton (columns : List Columns) (b : Binding) :
    declarationsSection settings columns [b] =
      (declaration settings columns b).map fun line => some (line ++ "\n") := by
  rw [declarationsSection_of_ne_nil (by simp), List.mapM_cons, List.mapM_nil]
  cases declaration settings columns b with
  | error e => rfl
  | ok line => simp [bind, Except.bind, pure, Except.pure, Except.map]

/-- A cell with one binding fails or not as the declaration of that binding does, and has
nothing else in its section. -/
theorem IsFrame.exists_assemble_only_eq {b : Binding} (h : IsFrame settings cell)
    (hnames : (cell.bindings.map Binding.name).Nodup) (hb : b ∈ cell.bindings) :
    ∃ program : String → Program, (∀ line, (program line).declarations = some (line ++ "\n")) ∧
      (cell.only b).assemble settings =
        (declaration settings cell.tables.2 (cell.declared b)).map program := by
  have honly : IsFrame settings (cell.only b) := ⟨h.session, h.package, h.tables⟩
  obtain ⟨program, hprogram, hassemble⟩ := honly.exists_assemble_eq
  have hbindings : (cell.only b).tables.1 = [(cell.only b).declared b] := tables_bindings _
  refine ⟨fun line => program (some (line ++ "\n")), fun _ => hprogram _, ?_⟩
  rw [hassemble, hbindings, declarationsSection_singleton, declaration_only hnames hb]
  cases declaration settings cell.tables.2 (cell.declared b) <;> rfl

theorem IsFrame.assemble_only_eq_error_iff {b : Binding} {e : GenerationError}
    (h : IsFrame settings cell) (hnames : (cell.bindings.map Binding.name).Nodup)
    (hb : b ∈ cell.bindings) :
    (cell.only b).assemble settings = .error e ↔
      declaration settings cell.tables.2 (cell.declared b) = .error e := by
  obtain ⟨program, -, honly⟩ := h.exists_assemble_only_eq hnames hb
  rw [honly, map_eq_error_iff]

theorem IsFrame.assemble_eq_error_iff {e : GenerationError} (h : IsFrame settings cell)
    (hne : cell.bindings ≠ []) (hnames : (cell.bindings.map Binding.name).Nodup) :
    cell.assemble settings = .error e ↔
      FirstFails (fun b e => (cell.only b).assemble settings = .error e) cell.bindings e := by
  obtain ⟨program, -, hassemble⟩ := h.exists_assemble_eq
  have hbindings : cell.tables.1 ≠ [] := by simpa [tables_bindings] using hne
  have hsteps : cell.tables.1.mapM (declaration settings cell.tables.2) =
      cell.bindings.mapM fun b => declaration settings cell.tables.2 (cell.declared b) := by
    rw [tables_bindings, List.mapM_map]
    rfl
  rw [hassemble, map_eq_error_iff, declarationsSection_of_ne_nil hbindings, bind_eq_error_iff,
    hsteps, mapM_eq_error_iff fun _ _ => Iff.rfl,
    firstFails_congr fun b hb e => (h.assemble_only_eq_error_iff hnames hb).symm]
  exact or_iff_left nofun

/-- Where names are distinct, a cell is made into a program if each of its bindings on its
own is, and the section is theirs one after the other; and it fails as the first binding
that fails on its own. -/
theorem assemble_binding_by_binding (h : IsFrame settings cell) (hne : cell.bindings ≠ [])
    (hnames : (cell.bindings.map Binding.name).Nodup) :
    ((∀ b ∈ cell.bindings, ∃ q, (cell.only b).assemble settings = .ok q) →
      ∃ p texts, cell.assemble settings = .ok p ∧ p.declarations = some (String.join texts) ∧
        List.Forall₂ (fun b text => ∃ q, (cell.only b).assemble settings = .ok q ∧
          q.declarations = some text) cell.bindings texts) ∧
    ∀ e, cell.assemble settings = .error e ↔
      FirstFails (fun b e => (cell.only b).assemble settings = .error e) cell.bindings e := by
  refine ⟨fun hall => ?_, fun e => h.assemble_eq_error_iff hne hnames⟩
  obtain ⟨p, hp⟩ : ∃ p, cell.assemble settings = .ok p := by
    rw [exists_eq_ok_iff]
    intro e he
    rw [h.assemble_eq_error_iff hne hnames] at he
    refine forall_not_firstFails_iff.2 (fun b hb e he => ?_) e he
    obtain ⟨q, hq⟩ := hall b hb
    rw [hq] at he
    cases he
  obtain ⟨-, -, hdeclarations, -⟩ := assemble_eq_ok_iff.1 hp
  obtain ⟨lines, hlines, htext⟩ := declarationsSection_eq_ok_iff.1 hdeclarations
  rw [tables_bindings, List.forall₂_map_left_iff] at hlines
  rw [tables_bindings, if_neg (by simpa using hne)] at htext
  refine ⟨p, lines.map (· ++ "\n"), hp, htext, ?_⟩
  rw [List.forall₂_map_right_iff]
  -- Each line is the whole section of the program that its binding makes alone.
  refine ((List.forall₂_and_left _ _).2 ⟨fun b hb => hb, hlines⟩).imp ?_
  rintro b line ⟨hb, hline⟩
  obtain ⟨program, hprogram, honly⟩ := h.exists_assemble_only_eq hnames hb
  rw [hline] at honly
  exact ⟨program line, honly, hprogram line⟩

/-- A table that gives its header away, one with nothing else, an empty one whose columns
are given, and a last binding. -/
def mixedCell (last : Binding) : Cell :=
  { headers := true
    columns := [⟨"e", ["x"]⟩]
    bindings := [
      ⟨"t", .seq [.seq [.text "a"], .seq [.int 1]]⟩,
      ⟨"h", .seq [.seq [.text "a", .text "b"]]⟩,
      ⟨"e", .seq []⟩,
      last] }

theorem isFrame_mixedCell (last : Binding) : IsFrame {} (mixedCell last) where
  session := by
    rintro ⟨name, hname, -⟩
    cases hname
  package := by
    have hsame : (mixedCell last).packageSection {} = ({} : Cell).packageSection {} := rfl
    rw [← exists_packageSection_eq_ok_iff, hsame]
    exact exists_eq_ok_of_isSome (by decide)
  tables c hc := by
    rw [List.mem_singleton.1 (show c ∈ [⟨"e", ["x"]⟩] from hc)]
    decide

/-- The first three of its bindings are fine; so it is the sum of four programs with an
integer, and it fails as its last binding does with a keyword. -/
theorem assemble_binding_by_binding_mixedCell :
    (∃ p texts, (mixedCell ⟨"n", .int 3⟩).assemble {} = .ok p ∧
      p.declarations = some (String.join texts) ∧
      List.Forall₂ (fun b text => ∃ q, ((mixedCell ⟨"n", .int 3⟩).only b).assemble {} = .ok q ∧
        q.declarations = some text) (mixedCell ⟨"n", .int 3⟩).bindings texts) ∧
    (mixedCell ⟨"go", .float .nan⟩).assemble {} = .error (.invalidName .binding "go") := by
  have hnames (last : Binding) (h : last.name ∉ ["t", "h", "e"]) :
      ((mixedCell last).bindings.map Binding.name).Nodup := by
    simpa [mixedCell, and_assoc, eq_comm] using h
  have hfine : ∀ b ∈ (mixedCell ⟨"n", .int 3⟩).bindings,
      ∃ q, ((mixedCell ⟨"n", .int 3⟩).only b).assemble {} = .ok q := by
    show ∀ b ∈ [_, _, _, _], _
    simp only [List.forall_mem_cons]
    refine ⟨?_, ?_, ?_, ?_, nofun⟩
    all_goals exact exists_eq_ok_of_isSome (by decide)
  constructor
  · exact (assemble_binding_by_binding (isFrame_mixedCell _) nofun (hnames _ (by decide))).1 hfine
  · refine ((assemble_binding_by_binding (isFrame_mixedCell _) nofun (hnames _ (by decide))).2 _).2
      ⟨(mixedCell ⟨"n", .int 3⟩).bindings.take 3, _, [], rfl, ?_, ?_⟩
    · intro b hb e he
      obtain ⟨q, hq⟩ := hfine b (List.mem_of_mem_take hb)
      exact absurd (hq.symm.trans he) nofun
    · refine ((isFrame_mixedCell _).assemble_only_eq_error_iff (hnames _ (by decide))
        (.tail _ (.tail _ (.tail _ (.head _))))).2 (declaration_eq_error_iff.2 ?_)
      exact .name (b := ⟨"go", .float .nan⟩) (fun o ho => Bool.noConfusion ho.1) (by decide)

end GoCell.Cell
