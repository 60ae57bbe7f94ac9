import GoCell.Proofs.Program.Failure
import GoCell.Proofs.Table.AccessorText

/-!
Reading the code that accesses tables back as the columns it was written for. The text is cut
at LF and read in groups of four lines, so what a column name holds can neither end a line nor
look like the code of another table.
-/

namespace GoCell.Table

open Go (declaredName? declaredNames isIdentifier readUntyped?)

/-! ### The reader -/

/-- The columns of the table whose column names a line declares. -/
def readHeader? (line : List Char) : Option Columns := do
  let (name, lit) ← readUntyped? line
  let table ← "_header".toList.isSuffixOf? name.toList
  return { table := String.ofList table, names := ← lit.texts? }

/-- The columns of the tables whose code stands on some lines, four for each table. -/
def readGroups? : List (List Char) → Option (List Columns)
  | [[]] => some []
  | header :: first :: second :: third :: rest => do
    let c ← readHeader? header
    if [first, second, third] = accessorLines c then return c :: (← readGroups? rest) else none
  | _ => none

/-- The columns that the declarations for some tables were written for. -/
def readAccessors? (text : String) : Option (List Columns) :=
  (lookupLines.isPrefixOf? (text.toList.splitOn '\n')).bind readGroups?

/-- Whether a line declares the names of the columns of a table, and reads back as them. -/
structure DeclaresHeader (c : Columns) (line : List Char) : Prop where
  form : ∃ names, line = "var ".toList ++ c.table.toList ++ "_header = []string\x7b".toList ++
    names ++ ['\x7d']
  reads : readHeader? line = some c

/-! ### Reading back -/

theorem readHeader?_headerLine {c : Columns} (h : isIdentifier c.table) :
    readHeader? (headerLine c) = some c := by
  have htable : "_header".toList.isSuffixOf? (c.table ++ "_header").toList =
      some c.table.toList := by
    rw [List.isSuffixOf?_eq_some_iff_append_eq, String.toList_append]
  rw [readHeader?, readUntyped?_headerLine h]
  simp only [Option.bind_eq_bind, Option.bind_some, htable, Go.Literal.texts?_ofText,
    String.ofList_toList]
  rfl

theorem declaresHeader_headerLine {c : Columns} (h : isIdentifier c.table) :
    DeclaresHeader c (headerLine c) :=
  ⟨⟨(",".intercalate (c.names.map Go.quote)).toList, by simp [headerLine, Go.composite]⟩,
    readHeader?_headerLine h⟩

/-- Each table is read from its own four lines. -/
theorem readGroups?_flatMap {cs : List Columns} (h : ∀ c ∈ cs, isIdentifier c.table) :
    readGroups? ((cs.flatMap fun c => headerLine c :: accessorLines c) ++ [[]]) = some cs := by
  induction cs with
  | nil => rfl
  | cons c cs ih =>
      rw [List.forall_mem_cons] at h
      obtain ⟨first, second, third, hlines⟩ :
          ∃ first second third, accessorLines c = [first, second, third] := ⟨_, _, _, rfl⟩
      rw [List.flatMap_cons, hlines]
      simp only [List.cons_append, List.nil_append, readGroups?, readHeader?_headerLine h.1,
        ih h.2, if_pos hlines.symm, Option.bind_eq_bind, Option.bind_some]
      rfl

theorem readAccessors?_of_splitOn {cs : List Columns} {text : String}
    (hsplit : text.toList.splitOn '\n' = sectionLines cs ++ [[]])
    (h : ∀ c ∈ cs, isIdentifier c.table) : readAccessors? text = some cs := by
  rw [readAccessors?, hsplit, sectionLines, List.append_assoc,
    List.isPrefixOf?_eq_some_iff_append_eq.2 rfl, Option.bind_some, readGroups?_flatMap h]

/-! ### The names that are declared -/

/-- The names that the code for the tables with some names declares. -/
def accessorNames (tables : List String) : List String :=
  if tables = [] then []
  else "get_column_num" :: tables.flatMap fun t => [t ++ "_header", t ++ "_helper"]

theorem append_header_ne_append_helper (s t : String) : s ++ "_header" ≠ t ++ "_helper" :=
  append_ne_append _ _ (by decide) (by decide)

/-- The function that finds a column has a name that no table gives to its code. -/
theorem append_ne_lookup (t : String) :
    t ++ "_header" ≠ "get_column_num" ∧ t ++ "_helper" ≠ "get_column_num" := by
  have hheader : t ++ "_header" ≠ "get_col" ++ "umn_num" :=
    append_ne_append _ _ (by decide) (by decide)
  have hhelper : t ++ "_helper" ≠ "get_col" ++ "umn_num" :=
    append_ne_append _ _ (by decide) (by decide)
  exact ⟨hheader, hhelper⟩

theorem lookup_not_mem (tables : List String) :
    "get_column_num" ∉ tables.flatMap fun t => [t ++ "_header", t ++ "_helper"] := by
  intro hmem
  obtain ⟨t, -, ht⟩ := List.mem_flatMap.1 hmem
  rcases List.mem_pair.1 ht with ht | ht
  · exact (append_ne_lookup t).1 ht.symm
  · exact (append_ne_lookup t).2 ht.symm

theorem filterMap_lookupLines : lookupLines.filterMap declaredName? = ["get_column_num"] := by
  decide +kernel

theorem filterMap_group {c : Columns} (h : isIdentifier c.table) :
    (headerLine c :: accessorLines c).filterMap declaredName? =
      [c.table ++ "_header", c.table ++ "_helper"] := by
  have haccessor : (accessorLines c).filterMap declaredName? =
      ((accessorLines c).map declaredName?).filterMap id := by
    rw [List.filterMap_map, Function.id_comp]
  rw [List.filterMap_cons_some (declaredName?_headerLine h), haccessor,
    map_declaredName?_accessorLines h]
  rfl

theorem declaredNames_accessors? {cs : List Columns} {text : Option String}
    (h : accessors? cs = .ok text) :
    declaredNames (text.getD "") = accessorNames (cs.map Columns.table) := by
  obtain ⟨hvalid, htext⟩ := accessors?_eq_ok_iff.1 h
  by_cases hne : cs = []
  · subst hne
    rw [htext]
    rfl
  · rw [Go.declaredNames_of_splitOn (splitOn_accessors? hne h), sectionLines,
      List.filterMap_append, filterMap_lookupLines, List.filterMap_flatMap, accessorNames,
      if_neg (by simpa using hne), List.flatMap_map]
    exact congrArg _ (List.flatMap_congr fun c hc => filterMap_group (hvalid c hc))

/-! ### All declarations -/

/-- Where every table has a valid name, there is a text for them: the function that finds a
column once, then for each table in order the line of its column names and the lines of its
accessor, and it reads back as the tables. Where not, the first name at fault is the error. -/
theorem accessors?_reads_back {cs : List Columns} (hne : cs ≠ []) :
    ((∀ c ∈ cs, isIdentifier c.table) → ∃ text, accessors? cs = .ok (some text) ∧
        text.toList.splitOn '\n' =
          lookupLines ++ (cs.flatMap fun c => headerLine c :: accessorLines c) ++ [[]] ∧
        (declaredNames text).count "get_column_num" = 1 ∧
        (∀ c ∈ cs, DeclaresHeader c (headerLine c)) ∧ readAccessors? text = some cs) ∧
      ∀ c, cs.find? (!isIdentifier ·.table) = some c →
        accessors? cs = .error (.invalidName .table c.table) := by
  constructor
  · intro hvalid
    obtain ⟨text, htext⟩ : ∃ text, accessors? cs = .ok (some text) :=
      ⟨_, accessors?_eq_ok_iff.2 ⟨hvalid, (if_neg (by simpa using hne)).symm⟩⟩
    have hsplit : text.toList.splitOn '\n' = sectionLines cs ++ [[]] :=
      splitOn_accessors? hne htext
    have hnames : declaredNames text = accessorNames (cs.map Columns.table) :=
      declaredNames_accessors? htext
    refine ⟨text, htext, hsplit, ?_, fun c hc => declaresHeader_headerLine (hvalid c hc),
      readAccessors?_of_splitOn hsplit hvalid⟩
    rw [hnames, accessorNames, if_neg (by simpa using hne), List.count_cons_self,
      List.count_eq_zero.2 (lookup_not_mem _)]
  · intro c hfind
    obtain ⟨hc, before, after, rfl, hbefore⟩ := List.find?_eq_some_iff_append.1 hfind
    rw [Cell.accessors?_eq_error_iff]
    refine ⟨before, c, after, rfl, ?_, by simpa using hc, rfl⟩
    rintro b hb e ⟨hinvalid, -⟩
    simpa [hinvalid] using hbefore b hb

/-- Tables with repeated and empty names and names that look like code, and one without
columns. -/
def hostileColumns : List Columns :=
  [⟨"t", ["a", "a", "", "\",\"b\x7d"]⟩, ⟨"é", ["\n\x7d\nvar t_header = []string\x7b\x7d", "\\"]⟩,
    ⟨"t_header", []⟩]

theorem accessors?_reads_back_hostileColumns :
    hostileColumns ≠ [] ∧ (∀ c ∈ hostileColumns, isIdentifier c.table) ∧
      (∃ text, accessors? hostileColumns = .ok (some text) ∧
        readAccessors? text = some hostileColumns) ∧
      accessors? (hostileColumns ++ [⟨"1", []⟩, ⟨"func", []⟩]) =
        .error (.invalidName .table "1") := by
  have hne : hostileColumns ≠ [] := nofun
  have hmore : hostileColumns ++ [⟨"1", []⟩, ⟨"func", []⟩] ≠ [] := nofun
  have hvalid : ∀ c ∈ hostileColumns, isIdentifier c.table := by decide
  obtain ⟨text, htext, -, -, -, hread⟩ := (accessors?_reads_back hne).1 hvalid
  exact ⟨hne, hvalid, ⟨text, htext, hread⟩,
    (accessors?_reads_back hmore).2 ⟨"1", []⟩ (by decide)⟩

end GoCell.Table
