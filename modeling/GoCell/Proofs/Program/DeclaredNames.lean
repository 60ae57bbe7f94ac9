import GoCell.Proofs.Table.AccessorReader
import GoCell.Proofs.Table.HeaderTaking
import Mathlib.Data.List.Nodup

/-!
The names that a program declares for its bindings and its tables. They are read off the text
of the two sections. Where bindings have distinct names and so have the given columns, no two
tables have the same name, whether their columns are given or taken; so names coincide only
where a binding has a name that is made for a table.
-/

namespace GoCell

open Go (declaredName? declaredNames isIdentifier)
open Table (accessorNames IsHeaded)

namespace Table

/-- Names for different tables are different, and so are the two for one table. -/
theorem nodup_accessorNames {tables : List String} (h : tables.Nodup) :
    (accessorNames tables).Nodup := by
  rw [accessorNames]
  split
  · exact List.nodup_nil
  rw [List.nodup_cons, List.nodup_flatMap]
  refine ⟨lookup_not_mem tables, fun t _ => ?_, h.imp fun {s t} hne => ?_⟩
  · simp
  · simp [Function.onFun, hne.symm, append_header_ne_append_helper,
      (append_header_ne_append_helper _ _).symm]

/-- The columns recorded for some bindings have the names of the bindings. -/
theorem map_table_of_forall₂ {bs : List Binding} {cs : List Columns}
    (h : List.Forall₂ RecordsFirstRow bs cs) : cs.map Columns.table = bs.map Binding.name := by
  induction h with
  | nil => rfl
  | cons hrecord _ ih => rw [List.map_cons, List.map_cons, hrecord.1, ih]

theorem mem_accessorNames_iff {tables : List String} {name : String} :
    name ∈ accessorNames tables ↔ (tables ≠ [] ∧ name = "get_column_num") ∨
      ∃ t ∈ tables, name = t ++ "_header" ∨ name = t ++ "_helper" := by
  rw [accessorNames]
  split
  · next hnil => simp [hnil]
  · next hne => simp [hne]

end Table

namespace Cell

variable {settings : Settings} {cell : Cell} {p : Program}

/-- The names of the tables whose columns are given or, where asked, taken from headers. -/
def tableNames (cell : Cell) : List String :=
  cell.columns.map Columns.table ++
    if cell.headers then (cell.bindings.filter (IsHeaded cell.columns ·)).map Binding.name else []

theorem map_table_tables (cell : Cell) : cell.tables.2.map Columns.table = cell.tableNames := by
  rw [tables, tableNames]
  split
  · next hheaders =>
    have hrecords := Table.forall₂_columns_takeHeaders cell.columns cell.bindings
    rw [List.map_append, Table.map_table_of_forall₂ hrecords]
  · next hheaders => rw [List.append_nil]

/-- A header is taken only for a table without given columns, so no table comes twice. -/
theorem nodup_tableNames (hbindings : (cell.bindings.map Binding.name).Nodup)
    (hcolumns : (cell.columns.map Columns.table).Nodup) : cell.tableNames.Nodup := by
  rw [tableNames]
  split
  · refine List.nodup_append.2 ⟨hcolumns, ?_, ?_⟩
    · exact hbindings.sublist (List.filter_sublist.map Binding.name)
    · intro given hgiven taken htaken heq
      obtain ⟨c, hc, rfl⟩ := List.mem_map.1 hgiven
      obtain ⟨b, hb, rfl⟩ := List.mem_map.1 htaken
      obtain ⟨-, hheaded⟩ := List.mem_filter.1 hb
      exact (of_decide_eq_true hheaded).1 c hc heq
  · rwa [List.append_nil]

/-! ### The names in the text -/

theorem declaredName?_of_declaration {b : Binding} {line : String}
    (h : declaration settings cell.tables.2 (cell.declared b) = .ok line) :
    declaredName? line.toList = some b.name := by
  rw [Go.declaredName?_declareAs (declareAs_of_declaration h), name_declared]

/-- Each line of the declarations declares the name of its binding. -/
theorem filterMap_declaredName?_of_forall₂ {bs : List Binding} {lines : List String}
    (h : List.Forall₂ (fun b line =>
      declaration settings cell.tables.2 (cell.declared b) = .ok line) bs lines) :
    (lines.map String.toList).filterMap declaredName? = bs.map Binding.name := by
  induction h with
  | nil => rfl
  | @cons b line bs lines hline _ ih =>
      have hname : declaredName? line.toList = some b.name := declaredName?_of_declaration hline
      rw [List.map_cons, List.map_cons, List.filterMap_cons_some hname, ih]

theorem declaredNames_declarations (h : cell.assemble settings = .ok p) :
    declaredNames (p.declarations.getD "") = cell.bindings.map Binding.name := by
  obtain ⟨lines, hsplit, hlines⟩ := exists_declarationLines h
  rw [Go.declaredNames_of_splitOn hsplit]
  exact filterMap_declaredName?_of_forall₂ hlines

theorem declaredNames_accessors (h : cell.assemble settings = .ok p) :
    declaredNames (p.accessors.getD "") = accessorNames cell.tableNames := by
  obtain ⟨-, -, -, haccessors, -⟩ := assemble_eq_ok_iff.1 h
  rw [Table.declaredNames_accessors? haccessors, map_table_tables]

theorem isIdentifier_of_mem_bindings {name : String} (h : cell.assemble settings = .ok p)
    (hname : name ∈ cell.bindings.map Binding.name) : isIdentifier name := by
  obtain ⟨b, hb, rfl⟩ := List.mem_map.1 hname
  obtain ⟨lines, -, hlines⟩ := exists_declarationLines h
  obtain ⟨i, hi⟩ := List.mem_iff_getElem?.1 hb
  obtain ⟨line, -, hline⟩ := exists_getElem?_of_forall₂ hlines hi
  have hdeclared := (Go.declareAs_eq_ok_iff.1 (declareAs_of_declaration hline)).1
  rwa [name_declared] at hdeclared

theorem isIdentifier_of_mem_accessorNames {name : String} (h : cell.assemble settings = .ok p)
    (hname : name ∈ accessorNames cell.tableNames) : isIdentifier name := by
  obtain ⟨-, -, -, haccessors, -⟩ := assemble_eq_ok_iff.1 h
  have hvalid : ∀ t ∈ cell.tableNames, isIdentifier t := by
    rw [← map_table_tables, List.forall_mem_map]
    exact (Table.accessors?_eq_ok_iff.1 haccessors).1
  rcases Table.mem_accessorNames_iff.1 hname with ⟨-, rfl⟩ | ⟨t, ht, rfl | rfl⟩
  · decide
  · exact Table.isIdentifier_header (hvalid t ht)
  · exact Table.isIdentifier_helper (hvalid t ht)

/-- The names that a program declares for bindings and tables are identifiers, and they are
distinct if and only if no binding has a name that is made for a table. -/
theorem declaredNames_nodup_iff (hbindings : (cell.bindings.map Binding.name).Nodup)
    (hcolumns : (cell.columns.map Columns.table).Nodup) (h : cell.assemble settings = .ok p) :
    let names := declaredNames (p.declarations.getD "") ++ declaredNames (p.accessors.getD "")
    names = cell.bindings.map Binding.name ++ accessorNames cell.tableNames ∧
      (∀ name ∈ names, Go.isIdentShape name.toList ∧ name ∉ Go.keywords) ∧
      (names.Nodup ↔ ∀ b ∈ cell.bindings, (cell.tableNames ≠ [] → b.name ≠ "get_column_num") ∧
        ∀ t ∈ cell.tableNames, b.name ≠ t ++ "_header" ∧ b.name ≠ t ++ "_helper") := by
  intro names
  have hnames : names = cell.bindings.map Binding.name ++ accessorNames cell.tableNames := by
    rw [← declaredNames_declarations h, ← declaredNames_accessors h]
  have hvalid : ∀ name ∈ names, isIdentifier name := by
    rw [hnames, List.forall_mem_append]
    exact ⟨fun _ => isIdentifier_of_mem_bindings h, fun _ => isIdentifier_of_mem_accessorNames h⟩
  have hapart : ∀ b : Binding, b.name ∉ accessorNames cell.tableNames ↔
      (cell.tableNames ≠ [] → b.name ≠ "get_column_num") ∧
        ∀ t ∈ cell.tableNames, b.name ≠ t ++ "_header" ∧ b.name ≠ t ++ "_helper" := by
    intro b
    rw [Table.mem_accessorNames_iff]
    simp only [not_or, not_and, not_exists, ne_eq]
  refine ⟨hnames, fun name hname => ?_, ?_⟩
  · exact ⟨Go.isIdentShape_of_isIdentifier (hvalid name hname),
      Go.not_mem_keywords_of_isIdentifier (hvalid name hname)⟩
  · have hmade := Table.nodup_accessorNames (nodup_tableNames hbindings hcolumns)
    rw [hnames, List.nodup_append', List.disjoint_left, List.forall_mem_map]
    simp only [hapart]
    exact ⟨fun hall => hall.2.2, fun hall => ⟨hbindings, hmade, hall⟩⟩

/-- A table with given columns, one with a header, and a binding that looks like a name made
for a table that there is not. -/
def namedCell : Cell :=
  { headers := true
    columns := [⟨"u", ["x"]⟩]
    bindings := [⟨"u_helper_", .int 1⟩, ⟨"é", .seq [.seq [.text "a"], .seq [.int 1]]⟩,
      ⟨"v_header", .seq [.text "v"]⟩] }

/-- The third binding has the name that is made for the column names of the first. -/
def clashingCell : Cell :=
  { headers := true
    bindings := [⟨"t", .seq [.seq [.text "a"], .seq [.text "b"]]⟩, ⟨"n", .nil⟩,
      ⟨"t_header", .text "c"⟩] }

theorem declaredNames_nodup_iff_namedCell :
    (∃ p, namedCell.assemble {} = .ok p ∧
      (declaredNames (p.declarations.getD "") ++ declaredNames (p.accessors.getD "")).Nodup) ∧
    ∃ p, clashingCell.assemble {} = .ok p ∧
      ¬(declaredNames (p.declarations.getD "") ++ declaredNames (p.accessors.getD "")).Nodup := by
  obtain ⟨p, hp⟩ := exists_eq_ok_of_isSome
    (show (namedCell.assemble {}).toOption.isSome by decide)
  obtain ⟨q, hq⟩ := exists_eq_ok_of_isSome
    (show (clashingCell.assemble {}).toOption.isSome by decide)
  refine ⟨⟨p, hp, (declaredNames_nodup_iff (by decide) (by decide) hp).2.2.2 ?_⟩, q, hq, ?_⟩
  · decide
  · rw [(declaredNames_nodup_iff (by decide) (by decide) hq).2.2]
    decide

end Cell

end GoCell
