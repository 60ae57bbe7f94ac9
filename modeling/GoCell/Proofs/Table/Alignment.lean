import GoCell.Proofs.Table.AccessorText
import GoCell.Proofs.Table.TakenHeader

/-!
Names and cells stay aligned when the header of a table is taken. The names that the
accessor of the table looks up are its first row, the rows that it indexes are the others,
in order, and both are declared once; so a column of the table keeps its number, and a row
has the number that it has below the header.
-/

namespace GoCell

/-- Rows of texts as a value. -/
def Value.ofTexts (rows : List (List String)) : Value :=
  .seq (rows.map fun cells => .seq (cells.map .text))

namespace Table

/-- The cell in a row and a column, if there is one. -/
def cellAt? (rows : List (List String)) (row column : Nat) : Option String :=
  rows[row]?.bind (·[column]?)

/-- A first row of texts is a header, and it is taken as it stands. -/
theorem splitHeader?_ofTexts (header : List String) (rows : List (List String)) :
    splitHeader? (.ofTexts (header :: rows)) = some (header, .ofTexts rows) := by
  have hsingle : (header.map Value.text).any Value.isSeq = false := by
    rw [List.any_eq_false]
    intro cell hcell
    obtain ⟨s, -, rfl⟩ := List.mem_map.1 hcell
    simp [Value.isSeq]
  have hdisplay : (header.map Value.text).map Value.display = header := by
    rw [List.map_map]
    exact List.map_id' header
  rw [Value.ofTexts, List.map_cons, splitHeader?, hsingle, hdisplay]
  rfl

theorem takeHeader_ofTexts {known : List Columns} {name : String} (header : List String)
    (rows : List (List String)) (h : ∀ c ∈ known, c.table ≠ name) :
    takeHeader known ⟨name, .ofTexts (header :: rows)⟩ =
      (⟨name, .ofTexts rows⟩, some ⟨name, header⟩) := by
  have hunknown : known.any (·.table == name) = false := by
    rw [List.any_eq_false]
    intro c hc
    simpa using h c hc
  rw [takeHeader, hunknown, splitHeader?_ofTexts]
  rfl

end Table

/-- Where a key tells elements apart, one element has a key. -/
theorem filter_eq_singleton {α κ : Type} [DecidableEq κ] {key : α → κ} {as : List α} {a : α}
    (h : (as.map key).Nodup) (ha : a ∈ as) : as.filter (key · = key a) = [a] := by
  induction as with
  | nil => cases ha
  | cons b as ih =>
      rw [List.map_cons, List.nodup_cons] at h
      rcases List.mem_cons.1 ha with rfl | ha
      · have hrest : as.filter (key · = key a) = [] := by
          rw [List.filter_eq_nil_iff]
          intro b hb hkey
          exact h.1 (List.mem_map.2 ⟨b, hb, of_decide_eq_true hkey⟩)
        rw [List.filter_cons_of_pos (by simp), hrest]
      · have hne : key b ≠ key a := by
          intro hkey
          exact h.1 (List.mem_map.2 ⟨a, ha, hkey.symm⟩)
        rw [List.filter_cons_of_neg (by simpa using hne), ih h.2 ha]

namespace Cell

variable {settings : Settings} {cell : Cell} {p : Program}

/-- Columns that are taken from a header belong to the binding that it stood in, so where
names are distinct and a table had no columns before, it has them once. -/
theorem filter_columns_of_takeHeader {b b' : Binding} {c : Columns}
    (hheaders : cell.headers = true) (hnames : (cell.bindings.map Binding.name).Nodup)
    (hunknown : ∀ c ∈ cell.columns, c.table ≠ b.name) (hb : b ∈ cell.bindings)
    (htaken : Table.takeHeader cell.columns b = (b', some c)) :
    cell.tables.2.filter (·.table = b.name) = [c] := by
  have hgiven : cell.columns.filter (·.table = b.name) = [] := by
    rw [List.filter_eq_nil_iff]
    intro c hc
    simpa using hunknown c hc
  have htables : cell.tables.2 =
      cell.columns ++ cell.bindings.filterMap fun b => (Table.takeHeader cell.columns b).2 := by
    rw [tables, if_pos hheaders]
    rfl
  -- What a binding gives has its name, so the selection can be made among the bindings.
  have hsame : ∀ a ∈ cell.bindings,
      (Table.takeHeader cell.columns a).2.filter (·.table = b.name) =
        if a.name = b.name then (Table.takeHeader cell.columns a).2 else none := by
    intro a _
    cases hc : Table.takeHeader cell.columns a with
    | mk a' taken =>
        cases taken with
        | none => simp
        | some c => simp [Option.filter, table_of_takeHeader hc]
  rw [htables, List.filter_append, hgiven, List.nil_append, List.filter_filterMap,
    List.filterMap_congr hsame]
  have hone := filter_eq_singleton hnames hb
  have hfilter := List.filterMap_filter (p := (·.name = b.name))
    (f := fun a => (Table.takeHeader cell.columns a).2) (l := cell.bindings)
  rw [hone] at hfilter
  simpa [htaken] using hfilter.symm

/-- A binding with a name of its own is declared by one line. -/
theorem exists_declarationLine {b : Binding} (hp : cell.assemble settings = .ok p)
    (hnames : (cell.bindings.map Binding.name).Nodup) (hb : b ∈ cell.bindings) :
    ∃ line, declaration settings cell.tables.2 (cell.declared b) = .ok line ∧
      Go.linesDeclaring b.name (p.declarations.getD "") = [line.toList] := by
  obtain ⟨lines, hsplit, hlines⟩ := exists_declarationLines hp
  -- A line declares the name if and only if its binding has it.
  have hdeclares : ∀ a line, declaration settings cell.tables.2 (cell.declared a) = .ok line →
      Go.declaredName? line.toList = some a.name := by
    intro a line hline
    rw [Go.declaredName?_declareAs (declareAs_of_declaration hline), name_declared]
  have hkept := List.rel_filter (p := (·.name = b.name))
    (q := (Go.declaredName? ·.toList = some b.name))
    (fun a line hline => by simp [hdeclares a line hline]) hlines
  rw [filter_eq_singleton hnames hb, List.forall₂_cons_left_iff] at hkept
  obtain ⟨line, rest, hline, hrest, hlinesKept⟩ := hkept
  rw [List.forall₂_nil_left_iff.1 hrest] at hlinesKept
  refine ⟨line, hline, ?_⟩
  rw [Go.linesDeclaring_of_splitOn hsplit, List.filter_map]
  exact congrArg (List.map String.toList) hlinesKept

/-- What is left of a table of texts under its header is declared as a table, with the
literal of its rows. -/
theorem readDeclaration?_of_ofTexts {columns : List Columns} {name line : String}
    {rows : List (List String)} (hknown : columns.any (·.table == name))
    (h : declaration settings columns ⟨name, .ofTexts rows⟩ = .ok line) :
    Go.readDeclaration? line.toList =
      some ⟨name, ⟨.string, .table⟩, .table (rows.map (·.map Go.Atom.ofText))⟩ := by
  have hty : declaredTy columns ⟨name, .ofTexts rows⟩ = ⟨.string, .table⟩ := by
    rw [Value.ofTexts, declaredTy_eq_table_iff hknown]
    cases rows <;> simp [Value.isSeq]
  have hcells (cells : List String) :
      (cells.map Value.text).map Go.Atom.ofCell = cells.map Go.Atom.ofText := by
    rw [List.map_map]
    rfl
  have hlit : Go.Literal.ofValue ⟨.string, .table⟩ (.ofTexts rows) =
      .table (rows.map (·.map Go.Atom.ofText)) := by
    show Go.Literal.table ((rows.map fun cells => .seq (cells.map .text)).map Go.rowAtoms) = _
    rw [List.map_map]
    exact congrArg Go.Literal.table (List.map_congr_left fun cells _ => hcells cells)
  rw [Go.readDeclaration?_declareAs (declareAs_of_declaration h), hty, hlit]

/-- Taking the header of a table of texts splits it in two, and each part is declared
once and reads back as it was: the names are the first row, and the rows are the others. -/
theorem header_aligned {name : String} {table : List (List String)}
    (hheaders : cell.headers = true) (hp : cell.assemble settings = .ok p)
    (hnames : (cell.bindings.map Binding.name).Nodup)
    (hunknown : ∀ c ∈ cell.columns, c.table ≠ name)
    (htable : table ≠ []) (hb : ⟨name, .ofTexts table⟩ ∈ cell.bindings) :
    ∃ header rows, table = header :: rows ∧
      (∃ line lit, Go.linesDeclaring (name ++ "_header") (p.accessors.getD "") = [line] ∧
        Go.readUntyped? line = some (name ++ "_header", lit) ∧ lit.texts? = some header) ∧
      (∃ line lit, Go.linesDeclaring name (p.declarations.getD "") = [line] ∧
        Go.readDeclaration? line = some ⟨name, ⟨.string, .table⟩, lit⟩ ∧
        lit.rowsOfTexts? = some rows) ∧
      ∀ j, header[j]? = Table.cellAt? table 0 j ∧
        ∀ r, Table.cellAt? rows r j = Table.cellAt? table (r + 1) j := by
  obtain ⟨header, rows, rfl⟩ := List.exists_cons_of_ne_nil htable
  have htaken := Table.takeHeader_ofTexts header rows hunknown
  have hcolumns := filter_columns_of_takeHeader hheaders hnames hunknown hb htaken
  have hknown : cell.tables.2.any (·.table == name) := by
    have hmem : ⟨name, header⟩ ∈ cell.tables.2 :=
      List.mem_of_mem_filter (hcolumns ▸ List.mem_singleton_self _)
    exact List.any_eq_true.2 ⟨_, hmem, beq_self_eq_true name⟩
  obtain ⟨-, -, -, haccessors, -⟩ := assemble_eq_ok_iff.1 hp
  refine ⟨header, rows, rfl, Table.exists_headerLine haccessors hcolumns, ?_,
    fun j => ⟨rfl, fun r => rfl⟩⟩
  obtain ⟨line, hline, hone⟩ := exists_declarationLine hp hnames hb
  rw [declared, if_pos hheaders, htaken] at hline
  exact ⟨line.toList, _, hone, readDeclaration?_of_ofTexts hknown hline,
    Go.Literal.rowsOfTexts?_ofText rows⟩

/-- A table whose texts hold what ends strings, cells, rows and lines, beside one whose
columns are given and one without header. -/
def markedCell : Cell :=
  { headers := true
    columns := [⟨"u", ["x"]⟩]
    bindings := [
      ⟨"u", .ofTexts [["a"], ["b"]]⟩,
      ⟨"t", .ofTexts [["n\"", "m,\nvar t_header = 1"], ["1\x7d", "2"], [], ["3", "\",\""]]⟩,
      ⟨"n", .int 3⟩] }

theorem header_aligned_markedCell :
    ∃ p, markedCell.assemble {} = .ok p ∧
      (∃ line lit, Go.linesDeclaring "t_header" (p.accessors.getD "") = [line] ∧
        Go.readUntyped? line = some ("t_header", lit) ∧
        lit.texts? = some ["n\"", "m,\nvar t_header = 1"]) ∧
      ∃ line lit, Go.linesDeclaring "t" (p.declarations.getD "") = [line] ∧
        Go.readDeclaration? line = some ⟨"t", ⟨.string, .table⟩, lit⟩ ∧
        lit.rowsOfTexts? = some [["1\x7d", "2"], [], ["3", "\",\""]] := by
  obtain ⟨p, hp⟩ := exists_eq_ok_of_isSome
    (show (markedCell.assemble {}).toOption.isSome by decide)
  have hnames : (markedCell.bindings.map Binding.name).Nodup := by decide
  have hunknown : ∀ c ∈ markedCell.columns, c.table ≠ "t" := by decide
  obtain ⟨header, rows, htable, hheader, hrows, -⟩ :=
    header_aligned rfl hp hnames hunknown (by simp) (.tail _ (.head _))
  obtain ⟨rfl, rfl⟩ := List.cons.inj htable
  exact ⟨p, hp, hheader, hrows⟩

end Cell

end GoCell
