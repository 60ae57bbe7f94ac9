import GoCell.Proofs.Go.DeclaredName
import GoCell.Proofs.Program.DeclarationLines

/-!
The code that reads tables by column names, line by line. The names of a table are
declared on one line, which reads back as those names, and no other line declares a
variable of that name.
-/

namespace GoCell

open Go (declaredName? linesDeclaring readUntyped? isIdentifier)

namespace Table

/-- The line that declares the column names of a table. -/
def headerLine (c : Columns) : List Char :=
  "var".toList ++ ' ' :: ((c.table ++ "_header").toList ++ ' ' :: '=' :: ' ' ::
    (Go.composite "[]string" (c.names.map Go.quote)).toList)

/-- The lines of the function that reads a cell of a table. -/
def accessorLines (c : Columns) : List (List Char) :=
  ["func".toList ++ ' ' :: ((c.table ++ "_helper").toList ++ "(row int, col string) string \x7b".toList),
    '\t' :: ("return".toList ++ ' ' ::
      (c.table ++ "[row][get_column_num(" ++ c.table ++ "_header, col)]").toList),
    ['\x7d']]

/-- The lines of the function that finds a column. -/
def lookupLines : List (List Char) := Text.lines lookup.toList

/-! ### The text in lines -/

theorem toList_header_append_accessor (c : Columns) :
    (header c ++ accessor c).toList =
      (headerLine c :: accessorLines c).flatMap (· ++ ['\n']) := by
  simp [header, accessor, headerLine, accessorLines]

/-- The lines make up the text, and none of them declares anything but the function. -/
theorem lookupLines_spec :
    lookup.toList = lookupLines.flatMap (· ++ ['\n']) ∧ ∀ line ∈ lookupLines,
      Text.OneLine line ∧ declaredName? line ∈ [none, some "get_column_num"] := by
  decide +kernel

theorem oneLine_headerLine {c : Columns} (h : isIdentifier c.table) :
    Text.OneLine (headerLine c) := by
  have hnames : Text.OneLine (Go.composite "[]string" (c.names.map Go.quote)).toList :=
    Go.oneLine_composite _ (by decide) fun s _ => Go.oneLine_quote s
  simp only [headerLine, String.toList_append, Text.oneLine_append, Text.oneLine_cons]
  exact ⟨by decide, by decide, ⟨Go.oneLine_of_isIdentifier h, by decide⟩, by decide, by decide,
    by decide, hnames⟩

theorem oneLine_accessorLines {c : Columns} (h : isIdentifier c.table) :
    ∀ line ∈ accessorLines c, Text.OneLine line := by
  have hname := Go.oneLine_of_isIdentifier h
  simp only [accessorLines, List.forall_mem_cons, String.toList_append, Text.oneLine_append,
    Text.oneLine_cons]
  exact ⟨⟨by decide, by decide, ⟨hname, by decide⟩, by decide⟩,
    ⟨by decide, by decide, by decide, ⟨⟨hname, by decide⟩, hname⟩, by decide⟩,
    by decide, by simp⟩

/-- The lines of all declarations for some tables. -/
def sectionLines (cs : List Columns) : List (List Char) :=
  lookupLines ++ cs.flatMap fun c => headerLine c :: accessorLines c

theorem oneLine_sectionLines {cs : List Columns} (h : ∀ c ∈ cs, isIdentifier c.table) :
    ∀ line ∈ sectionLines cs, Text.OneLine line := by
  intro line hline
  rcases List.mem_append.1 hline with hline | hline
  · exact (lookupLines_spec.2 line hline).1
  · obtain ⟨c, hc, hline⟩ := List.mem_flatMap.1 hline
    rcases List.mem_cons.1 hline with rfl | hline
    · exact oneLine_headerLine (h c hc)
    · exact oneLine_accessorLines (h c hc) line hline

theorem toList_accessors? {cs : List Columns} {text : Option String} (hne : cs ≠ [])
    (h : accessors? cs = .ok text) :
    (text.getD "").toList = (sectionLines cs).flatMap (· ++ ['\n']) := by
  obtain ⟨-, htext⟩ := accessors?_eq_ok_iff.1 h
  rw [if_neg (by simpa using hne)] at htext
  rw [htext, Option.getD_some, String.toList_append, lookupLines_spec.1, String.toList_join,
    List.flatMap_map, sectionLines, List.flatMap_append, List.flatMap_assoc]
  simp only [toList_header_append_accessor]

theorem splitOn_accessors? {cs : List Columns} {text : Option String} (hne : cs ≠ [])
    (h : accessors? cs = .ok text) :
    (text.getD "").toList.splitOn '\n' = sectionLines cs ++ [[]] := by
  obtain ⟨hnames, -⟩ := accessors?_eq_ok_iff.1 h
  rw [toList_accessors? hne h]
  exact Text.splitOn_flatMap_lf fun line hline =>
    (oneLine_sectionLines hnames line hline).lf_not_mem

/-! ### What the lines declare -/

/-- Names with different ends of one length are different. -/
theorem append_ne_append {s t : String} (a b : String)
    (hlength : s.toList.length = t.toList.length) (hne : s ≠ t) : a ++ s ≠ b ++ t := by
  intro h
  apply hne
  rw [← String.toList_inj, String.toList_append, String.toList_append] at h
  rw [← String.toList_inj]
  exact List.append_inj_right' h hlength

theorem isIdentifier_header {name : String} (h : isIdentifier name) :
    isIdentifier (name ++ "_header") :=
  Go.isIdentifier_append h (by decide) (by decide)

theorem isIdentifier_helper {name : String} (h : isIdentifier name) :
    isIdentifier (name ++ "_helper") :=
  Go.isIdentifier_append h (by decide) (by decide)

theorem declaredName?_headerLine {c : Columns} (h : isIdentifier c.table) :
    declaredName? (headerLine c) = some (c.table ++ "_header") := by
  have hname := isIdentifier_header h
  rw [headerLine, Go.declaredName?_append (by decide) (fun d hd => Go.isIdentChar_of_mem hname hd)
    (Go.toList_ne_nil_of_isIdentifier hname) rfl, String.ofList_toList]

/-- Of the lines of an accessor only the first declares something. -/
theorem map_declaredName?_accessorLines {c : Columns} (h : isIdentifier c.table) :
    (accessorLines c).map declaredName? = [some (c.table ++ "_helper"), none, none] := by
  have hname := isIdentifier_helper h
  have hfirst (rest : List Char) (hrest : Go.startsApart rest) :
      declaredName? ("func".toList ++ ' ' :: ((c.table ++ "_helper").toList ++ rest)) =
        some (c.table ++ "_helper") := by
    rw [Go.declaredName?_append (by decide) (fun d hd => Go.isIdentChar_of_mem hname hd)
      (Go.toList_ne_nil_of_isIdentifier hname) hrest, String.ofList_toList]
  have hreturn (rest : List Char) :
      declaredName? ('\t' :: ("return".toList ++ ' ' :: rest)) = none := by
    have hword : ∀ c ∈ "return".toList, Go.isIdentChar c :=
      List.all_eq_true.1 (by decide)
    have hcode : Go.skipGap ('\t' :: ("return".toList ++ ' ' :: rest)) =
        "return".toList ++ ' ' :: rest :=
      (List.dropWhile_cons_of_pos rfl).trans (Go.skipGap_word_append hword (by decide))
    apply Go.declaredName?_of_not_mem
    rw [hcode, Text.takeWhile_append_of_head hword (Go.not_isIdentChar_of_startsApart rfl)]
    decide
  have hclose : declaredName? ['\x7d'] = none := by decide
  rw [accessorLines, List.map_cons, List.map_cons, List.map_cons, hfirst _ rfl, hreturn, hclose,
    List.map_nil]

/-- The names of a table are declared by the lines that are written for it, and by no
other line. -/
theorem filter_sectionLines {cs : List Columns} (h : ∀ c ∈ cs, isIdentifier c.table)
    (name : String) :
    (sectionLines cs).filter (declaredName? · = some (name ++ "_header")) =
      (cs.filter (·.table = name)).map headerLine := by
  -- The other names that the section declares end differently.
  have hlookup : lookupLines.filter (declaredName? · = some (name ++ "_header")) = [] := by
    rw [List.filter_eq_nil_iff]
    intro line hline hdeclared
    have hne : name ++ "_header" ≠ "get_col" ++ "umn_num" :=
      append_ne_append _ _ (by decide) (by decide)
    have hmem := (lookupLines_spec.2 line hline).2
    rw [of_decide_eq_true hdeclared] at hmem
    exact hne (by simpa using hmem)
  have haccessor : ∀ c ∈ cs,
      (accessorLines c).filter (declaredName? · = some (name ++ "_header")) = [] := by
    intro c hc
    rw [List.filter_eq_nil_iff]
    intro line hline hdeclared
    have hne : name ++ "_header" ≠ c.table ++ "_helper" :=
      append_ne_append _ _ (by decide) (by decide)
    have hmem := List.mem_map_of_mem (f := declaredName?) hline
    rw [map_declaredName?_accessorLines (h c hc), of_decide_eq_true hdeclared] at hmem
    exact hne (by simpa using hmem)
  rw [sectionLines, List.filter_append, hlookup, List.nil_append, List.filter_flatMap]
  induction cs with
  | nil => rfl
  | cons c cs ih =>
      rw [List.forall_mem_cons] at h haccessor
      have hheader : declaredName? (headerLine c) = some (name ++ "_header") ↔ c.table = name := by
        rw [declaredName?_headerLine h.1, Option.some_inj, String.append_left_inj]
      rw [List.flatMap_cons, ih h.2 haccessor.2, List.filter_cons, haccessor.1, List.filter_cons]
      simp only [hheader]
      split <;> rfl

/-! ### What the names read back as -/

/-- The line of a table reads back as its column names. -/
theorem readUntyped?_headerLine {c : Columns} (h : isIdentifier c.table) :
    readUntyped? (headerLine c) =
      some (c.table ++ "_header", .vector .string (c.names.map Go.Atom.ofText)) := by
  have hnames : Go.Spells (Go.composite "[]string" (c.names.map Go.quote)).toList
      (Go.Literal.vector .string (c.names.map Go.Atom.ofText)).tokens :=
    Go.spells_composite .string (Go.forall₂_spells fun s _ => Go.spells_quote s)
  exact Go.readUntyped?_of_spells (isIdentifier_header h) hnames

/-- Where a table has its columns once among the known ones, its names are declared on one
line, and there they stand. -/
theorem exists_headerLine {cs : List Columns} {text : Option String} {name : String}
    {names : List String} (h : accessors? cs = .ok text)
    (hone : cs.filter (·.table = name) = [⟨name, names⟩]) :
    ∃ line lit, linesDeclaring (name ++ "_header") (text.getD "") = [line] ∧
      readUntyped? line = some (name ++ "_header", lit) ∧ lit.texts? = some names := by
  obtain ⟨hvalid, -⟩ := accessors?_eq_ok_iff.1 h
  have hmem : ⟨name, names⟩ ∈ cs :=
    List.mem_of_mem_filter (hone ▸ List.mem_singleton_self _)
  refine ⟨headerLine ⟨name, names⟩, _, ?_, readUntyped?_headerLine (hvalid _ hmem),
    Go.Literal.texts?_ofText names⟩
  rw [Go.linesDeclaring_of_splitOn (splitOn_accessors? (List.ne_nil_of_mem hmem) h),
    filter_sectionLines hvalid, hone]
  rfl

end Table

end GoCell
