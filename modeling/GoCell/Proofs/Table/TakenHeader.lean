import GoCell.Proofs.Program.Assembly

/-!
The type of a table after its header is taken. An accessor is written for it and
reads a text in a row, so only the type of a table fits; but the type is found from
the rows that remain, and a row that is no sequence may now be the first.
-/

namespace GoCell

/-- The type in a declaration: its third word. -/
def Go.declaredType? (line : List Char) : Option (List Char) := (line.splitOn ' ')[2]?

/-- The type under which a program declares its variable number `i`. -/
def Program.declaredType? (p : Program) (i : Nat) : Option String :=
  ((Text.lines (p.declarations.getD "").toList)[i]?).bind fun line =>
    (Go.declaredType? line).map String.ofList

namespace Go

theorem space_not_mem_of_isIdentifier {name : String} (h : isIdentifier name) :
    ' ' ∉ name.toList := fun hmem => absurd (isIdentChar_of_mem h hmem) (by decide)

theorem space_not_mem_ty (ty : Ty) : ' ' ∉ ty.text.toList := by
  obtain ⟨base, shape⟩ := ty
  cases base <;> cases shape <;> decide

theorem declaredType?_of_declareAs {ty : Ty} {b : Binding} {stmt : String}
    (h : declareAs ty b = .ok stmt) : declaredType? stmt.toList = some ty.text.toList := by
  obtain ⟨hname, text, -, rfl⟩ := declareAs_eq_ok_iff.1 h
  have hstmt : ("var " ++ b.name ++ " " ++ ty.text ++ " = " ++ text).toList =
      ['v', 'a', 'r'] ++ ' ' :: (b.name.toList ++ ' ' :: (ty.text.toList ++ ' ' ::
        ('=' :: ' ' :: text.toList))) := by
    simp
  rw [declaredType?, hstmt, List.splitOn_append_cons_self_of_not_mem (by decide),
    List.splitOn_append_cons_self_of_not_mem (space_not_mem_of_isIdentifier hname),
    List.splitOn_append_cons_self_of_not_mem (space_not_mem_ty ty)]
  rfl

theorem ty_text_eq_iff {ty : Ty} : ty.text = "[][]string" ↔ ty = ⟨.string, .table⟩ := by
  obtain ⟨base, shape⟩ := ty
  cases base <;> cases shape <;> decide

end Go

namespace Cell

variable {settings : Settings} {cell : Cell} {p : Program}

/-- The declared type is the one that is found beside the columns. -/
theorem declaredType?_eq {i : Nat} {b : Binding} (hp : cell.assemble settings = .ok p)
    (hb : cell.tables.1[i]? = some b) :
    p.declaredType? i = some (declaredTy cell.tables.2 b).text := by
  obtain ⟨-, -, hdeclarations, -⟩ := assemble_eq_ok_iff.1 hp
  obtain ⟨line, hline, hi⟩ := exists_line_of_declarationsSection hdeclarations hb
  rw [Program.declaredType?, hi, Option.bind_some,
    Go.declaredType?_of_declareAs (declareAs_of_declaration hline), Option.map_some,
    String.ofList_toList]

/-- What remains of a table with a name that has columns is declared as a table when it
is empty or a table itself. -/
theorem declaredTy_eq_table_iff {columns : List Columns} {name : String} {rows : List Value}
    (h : columns.any (·.table == name)) :
    declaredTy columns ⟨name, .seq rows⟩ = ⟨.string, .table⟩ ↔ ∀ row ∈ rows.head?, row.isSeq := by
  cases rows with
  | nil => simp [declaredTy, isEmptyTable, h]
  | cons row rows =>
      cases row <;>
        simp [declaredTy, isEmptyTable, Go.looseTy, Value.isTable, Value.isSeq]

/-- A header that is taken leaves the rest of its table, and its columns become known. -/
theorem tables_of_takeHeader {i : Nat} {b b' : Binding} {c : Columns}
    (hheaders : cell.headers = true) (hb : cell.bindings[i]? = some b)
    (htaken : Table.takeHeader cell.columns b = (b', some c)) :
    cell.tables.1[i]? = some b' ∧ c ∈ cell.tables.2 := by
  rw [tables, if_pos hheaders]
  constructor
  · simp [Table.takeHeaders, hb, htaken]
  · refine List.mem_append_right _ (List.mem_filterMap.2 ⟨b, List.mem_of_getElem? hb, ?_⟩)
    rw [htaken]

theorem table_of_takeHeader {known : List Columns} {b b' : Binding} {c : Columns}
    (h : Table.takeHeader known b = (b', some c)) : c.table = b.name := by
  unfold Table.takeHeader at h
  split at h
  · cases h
  · split at h
    · cases h
      rfl
    · cases h

/-- An accessor is written for every table whose columns are known. -/
theorem exists_accessor {c : Columns} (hp : cell.assemble settings = .ok p)
    (hc : c ∈ cell.tables.2) :
    ∃ before after, p.accessors = some (before ++ Table.accessor c ++ after) := by
  obtain ⟨-, -, -, haccessors, -⟩ := assemble_eq_ok_iff.1 hp
  obtain ⟨-, htext⟩ := Table.accessors?_eq_ok_iff.1 haccessors
  obtain ⟨xs, ys, hcs⟩ := List.append_of_mem hc
  rw [hcs, if_neg (by simp)] at htext
  refine ⟨Table.lookup ++ String.join (xs.map fun c => Table.header c ++ Table.accessor c) ++
    Table.header c, String.join (ys.map fun c => Table.header c ++ Table.accessor c), ?_⟩
  rw [htext]
  simp [String.append_assoc]

/-- A table whose header is taken gets an accessor, and stays a table exactly when no
row is left or the first one that is left is a sequence. -/
theorem declaredType?_of_takeHeader {i : Nat} {b : Binding} {rows : List Value} {c : Columns}
    (hheaders : cell.headers = true) (hp : cell.assemble settings = .ok p)
    (hb : cell.bindings[i]? = some b)
    (htaken : Table.takeHeader cell.columns b = (⟨b.name, .seq rows⟩, some c)) :
    (∃ before after, p.accessors = some (before ++ Table.accessor c ++ after)) ∧
      c.table = b.name ∧
      (p.declaredType? i = some "[][]string" ↔ ∀ row ∈ rows.head?, row.isSeq = true) := by
  obtain ⟨hi, hc⟩ := tables_of_takeHeader hheaders hb htaken
  have hname := table_of_takeHeader htaken
  have hknown : cell.tables.2.any (·.table == b.name) := by
    rw [List.any_eq_true]
    exact ⟨c, hc, by simp [hname]⟩
  refine ⟨exists_accessor hp hc, hname, ?_⟩
  rw [declaredType?_eq hp hi, Option.some_inj, Go.ty_text_eq_iff]
  exact declaredTy_eq_table_iff hknown

/-- A table with a rule, or another row, under its header. -/
def headedCell (rule : Value) : Cell :=
  { headers := true
    bindings := [⟨"t", .seq [.seq [.text "a"], rule, .seq [.text "1"]]⟩] }

theorem declaredType?_headedCell :
    (∃ p, (headedCell (.seq [.text "0"])).assemble {} = .ok p ∧
      p.declaredType? 0 = some "[][]string") ∧
    ∃ p, (headedCell (.symbol "hline")).assemble {} = .ok p ∧
      p.declaredType? 0 ≠ some "[][]string" := by
  obtain ⟨p, hp⟩ := exists_eq_ok_of_isSome
    (show ((headedCell (.seq [.text "0"])).assemble {}).toOption.isSome by decide)
  obtain ⟨q, hq⟩ := exists_eq_ok_of_isSome
    (show ((headedCell (.symbol "hline")).assemble {}).toOption.isSome by decide)
  refine ⟨⟨p, hp, ?_⟩, q, hq, ?_⟩
  · exact (declaredType?_of_takeHeader rfl hp rfl rfl).2.2.2 (by decide)
  · rw [ne_eq, (declaredType?_of_takeHeader rfl hq rfl rfl).2.2]
    decide

/-- Not every table whose header is taken stays a table. -/
theorem not_forall_declaredType?_eq_table :
    ¬ ∀ (settings : Settings) (cell : Cell) (p : Program) (i : Nat) (b b' : Binding) (c : Columns),
      cell.headers = true → cell.assemble settings = .ok p → cell.bindings[i]? = some b →
        Table.takeHeader cell.columns b = (b', some c) →
          p.declaredType? i = some "[][]string" := by
  intro h
  have hvector : ((headedCell (.symbol "hline")).assemble {}).toOption.bind (·.declaredType? 0) =
      some "[]string" := by decide
  obtain ⟨p, hp⟩ := exists_eq_ok_of_isSome
    (show ((headedCell (.symbol "hline")).assemble {}).toOption.isSome by decide)
  have htable := h {} _ p 0 _ _ _ rfl hp rfl rfl
  rw [hp] at hvector
  exact absurd (htable.symm.trans hvector) (by decide)

end Cell

end GoCell
