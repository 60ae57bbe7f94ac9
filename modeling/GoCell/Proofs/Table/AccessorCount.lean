import GoCell.Proofs.Table.AccessorText
import GoCell.Proofs.Text.Occurrences

/-!
Counting tables in the code that reads them. The text by which a function of a table is told
stands once in every such function. It stands in no other code, but column names may hold it,
and where they do they are counted as well.
-/

namespace GoCell.Table

open Text (places)

/-- What follows the first character of the text that functions of tables are told by: the end
of the name and the start of the parameters. -/
def markTail : List Char := "helper(row int".toList

theorem toList_mark : "_helper(row int".toList = '_' :: markTail := by decide

theorem occurrences_mark (l : List Char) :
    Text.occurrences "_helper(row int".toList l = places ('_' :: markTail) l := by
  rw [toList_mark]
  exact Text.occurrences_eq_places (by decide) l

/-- How often the column names of a table hold this text. -/
def strayMarks (c : Columns) : Nat :=
  (c.names.map fun name => Text.occurrences "_helper(row int".toList name.toList).sum

theorem spellsAround_quoteChar : Text.SpellsAround '_' markTail Go.quoteChar := by
  intro c
  have hdigit : ∀ n < 16, Nat.digitChar n ≠ '_' := by decide
  unfold Go.quoteChar
  split
  · next hc =>
    subst hc
    exact .inr ⟨by decide, '\\', ['\\'], rfl, by decide, by decide⟩
  split
  · next hc =>
    subst hc
    exact .inr ⟨by decide, '\\', ['"'], rfl, by decide, by decide⟩
  split
  · next hc =>
    subst hc
    exact .inr ⟨by decide, '\\', ['n'], rfl, by decide, by decide⟩
  split
  · next hc =>
    subst hc
    exact .inr ⟨by decide, '\\', ['r'], rfl, by decide, by decide⟩
  split
  · next hc =>
    subst hc
    exact .inr ⟨by decide, '\\', ['t'], rfl, by decide, by decide⟩
  split
  · next hcontrol =>
    refine .inr ⟨fun hmem => ?_, '\\', 'x' :: Go.hexDigits c.toNat, rfl, by decide, ?_⟩
    · have hprinted : (('_' :: markTail).all fun d => !(d.toNat < 0x20 || d.toNat = 0x7f)) = true :=
        by decide
      have hc := List.all_eq_true.1 hprinted c hmem
      simp only [Bool.not_eq_true', Bool.or_eq_false_iff, decide_eq_false_iff_not] at hc
      exact hcontrol.elim hc.1 hc.2
    · simp only [Go.hexDigits, List.mem_cons, List.not_mem_nil, or_false, not_or]
      exact ⟨by decide, (hdigit _ (by omega)).symm, (hdigit _ (by omega)).symm⟩
  · exact .inl rfl

theorem places_quote (s : String) :
    places ('_' :: markTail) (Go.quote s).toList = places ('_' :: markTail) s.toList := by
  rw [Go.quote, String.toList_ofList, Go.quoteChars, Text.places_cons_of_ne (by decide),
    Text.places_append_cons (by decide), Text.places_flatMap_spell spellsAround_quoteChar,
    Text.places_nil, Nat.add_zero]

theorem not_mem_of_isIdentifier {name : String} {c : Char} (hc : Go.isIdentChar c = false)
    (h : Go.isIdentifier name) : c ∉ name.toList := by
  intro hmem
  rw [Go.isIdentChar_of_mem h hmem] at hc
  cases hc

/-- In the line of the column names only the names hold it. -/
theorem places_headerLine {c : Columns} (h : Go.isIdentifier c.table) :
    places ('_' :: markTail) (headerLine c) = strayMarks c := by
  have hparen : '(' ∉ "var".toList ++ ' ' :: ((c.table ++ "_header").toList ++ ' ' :: '=' :: ' ' ::
      "[]string".toList) := by
    have htable := not_mem_of_isIdentifier (c := '(') (by decide) h
    simp [htable]
  have hline : headerLine c = ("var".toList ++ ' ' :: ((c.table ++ "_header").toList ++ ' ' ::
      '=' :: ' ' :: "[]string".toList)) ++ '\x7b' ::
        ([','].intercalate (c.names.map fun name => (Go.quote name).toList) ++ '\x7d' :: []) := by
    simp [headerLine, Go.composite, Function.comp_def]
  rw [hline, Text.places_append_cons (c := '\x7b') (by decide),
    Text.places_append_cons (c := '\x7d') (by decide),
    Text.places_eq_zero_of_not_mem (by decide) hparen, Text.places_intercalate (by decide),
    Text.places_nil, Nat.zero_add, Nat.add_zero, List.map_map, strayMarks]
  refine congrArg List.sum (List.map_congr_left fun name _ => ?_)
  rw [occurrences_mark, Function.comp_apply, places_quote]

theorem places_functionLine {table : String} (h : Go.isIdentifier table) :
    places ('_' :: markTail) ("func".toList ++ ' ' :: ((table ++ "_helper").toList ++
      "(row int, col string) string \x7b".toList)) = 1 := by
  have hmark : "_helper".toList ++ "(row int, col string) string \x7b".toList =
      '_' :: markTail ++ ',' :: " col string) string \x7b".toList := by decide
  have hline : "func".toList ++ ' ' :: ((table ++ "_helper").toList ++
      "(row int, col string) string \x7b".toList) =
        ("func".toList ++ ' ' :: table.toList) ++ '_' :: markTail ++ ',' ::
          " col string) string \x7b".toList := by
    rw [String.toList_append, List.append_assoc table.toList, hmark]
    simp only [List.append_assoc, List.cons_append]
  have hbefore : '(' ∉ "func".toList ++ ' ' :: table.toList := by
    simpa using not_mem_of_isIdentifier (c := '(') (by decide) h
  rw [hline, Text.places_append_cons (c := ',') (by decide),
    Text.places_append_self (by decide) (c := '(') (by decide) hbefore,
    Text.places_eq_zero_of_not_mem (c := '_') (by decide) (by decide)]

/-- Between its brackets and commas the line of the result has no room for it. -/
theorem places_resultLine {table : String} (h : Go.isIdentifier table) :
    places ('_' :: markTail) ('\t' :: ("return".toList ++ ' ' ::
      (table ++ "[row][get_column_num(" ++ table ++ "_header, col)]").toList)) = 0 := by
  have hparen := not_mem_of_isIdentifier (c := '(') (by decide) h
  have hspace := not_mem_of_isIdentifier (c := ' ') (by decide) h
  have hline : '\t' :: ("return".toList ++ ' ' ::
      (table ++ "[row][get_column_num(" ++ table ++ "_header, col)]").toList) =
        ('\t' :: ("return".toList ++ ' ' :: table.toList)) ++ '[' ::
          (("row][get_column_num(".toList ++ table.toList ++ "_header".toList) ++ ',' ::
            " col)]".toList) := by
    simp
  rw [hline, Text.places_append_cons (c := '[') (by decide),
    Text.places_append_cons (c := ',') (by decide),
    Text.places_eq_zero_of_not_mem (c := '(') (by decide) (by simpa using hparen),
    Text.places_eq_zero_of_not_mem (c := ' ') (by decide) (by simpa using hspace),
    Text.places_eq_zero_of_not_mem (c := '_') (by decide) (by decide)]

/-- In the function of a table the first line holds it once. -/
theorem places_accessorLines {c : Columns} (h : Go.isIdentifier c.table) :
    (accessorLines c).map (places ('_' :: markTail)) = [1, 0, 0] := by
  rw [accessorLines, List.map_cons, List.map_cons, List.map_cons, places_functionLine h,
    places_resultLine h, List.map_nil]
  rfl

theorem sum_places_sectionLines {cs : List Columns} (h : ∀ c ∈ cs, Go.isIdentifier c.table) :
    ((sectionLines cs).map (places ('_' :: markTail))).sum =
      cs.length + (cs.map strayMarks).sum := by
  have hlookup : (lookupLines.map (places ('_' :: markTail))).sum = 0 :=
    calc (lookupLines.map (places ('_' :: markTail))).sum
        = places ('_' :: markTail) lookup.toList := by
          rw [lookupLines_spec.1, Text.places_flatMap_append (by decide)]
      _ = 0 := Text.places_eq_zero_of_not_mem (c := 'w') (by decide) (by decide +kernel)
  rw [sectionLines, List.map_append, List.sum_append, hlookup, Nat.zero_add]
  induction cs with
  | nil => rfl
  | cons c cs ih =>
      obtain ⟨hc, hcs⟩ := List.forall_mem_cons.1 h
      rw [List.flatMap_cons, List.map_append, List.sum_append, ih hcs, List.map_cons,
        List.sum_cons, places_headerLine hc, places_accessorLines hc, List.map_cons,
        List.sum_cons, List.length_cons]
      simp only [List.sum_cons, List.sum_nil]
      omega

/-- The text is counted once for every table, and as often again as the column names hold it. -/
theorem occurrences_accessors? {cs : List Columns} {text : Option String}
    (h : accessors? cs = .ok text) :
    Text.occurrences "_helper(row int".toList (text.getD "").toList =
      cs.length + (cs.map strayMarks).sum := by
  obtain ⟨hnames, htext⟩ := accessors?_eq_ok_iff.1 h
  by_cases hne : cs = []
  · subst hne
    rw [htext]
    rfl
  · rw [occurrences_mark, toList_accessors? hne h, Text.places_flatMap_append (by decide),
      sum_places_sectionLines hnames]

theorem strayMarks_eq_zero_iff {c : Columns} :
    strayMarks c = 0 ↔ ∀ name ∈ c.names, ¬ "_helper(row int".toList <:+: name.toList := by
  rw [strayMarks, List.sum_eq_zero_iff_forall_eq_nat, List.forall_mem_map]
  refine forall₂_congr fun name _ => ?_
  rw [occurrences_mark, toList_mark]
  exact Text.places_eq_zero_iff

end GoCell.Table
