import GoCell.Program.Assembly
import GoCell.Proofs.Go.OneLine

/-!
What a program consists of, where there is one: every section by the part of the
cell that it is made from.
-/

namespace GoCell

namespace Table

theorem accessorPair_eq_ok_iff {c : Columns} {p : String × String} :
    accessorPair c = .ok p ↔ Go.isIdentifier c.table ∧ (header c, accessor c) = p := by
  rw [accessorPair, bind_eq_ok_iff]
  constructor
  · rintro ⟨⟨⟩, hname, hp⟩
    exact ⟨Go.checkName_eq_ok_iff.1 hname, Except.ok.inj hp⟩
  · rintro ⟨hname, rfl⟩
    exact ⟨(), Go.checkName_eq_ok_iff.2 hname, rfl⟩

theorem mapM_accessorPair_eq_ok_iff {cs : List Columns} {pairs : List (String × String)} :
    cs.mapM accessorPair = .ok pairs ↔
      (∀ c ∈ cs, Go.isIdentifier c.table) ∧ cs.map (fun c => (header c, accessor c)) = pairs := by
  rw [mapM_eq_ok_iff]
  induction cs generalizing pairs with
  | nil => cases pairs <;> simp
  | cons c cs ih =>
      cases pairs with
      | nil => simp
      | cons p pairs =>
          rw [List.forall₂_cons, accessorPair_eq_ok_iff, ih, List.forall_mem_cons, List.map_cons,
            List.cons.injEq]
          exact and_and_and_comm

theorem accessors?_of_ne_nil {cs : List Columns} (h : cs ≠ []) :
    accessors? cs = cs.mapM accessorPair >>= fun pairs =>
      pure (some (lookup ++ String.join (pairs.map fun pair => pair.1 ++ pair.2))) := by
  obtain ⟨c, cs, rfl⟩ := List.exists_cons_of_ne_nil h
  rfl

/-- There are accessors when every table has a valid name. -/
theorem accessors?_eq_ok_iff {cs : List Columns} {text : Option String} :
    accessors? cs = .ok text ↔ (∀ c ∈ cs, Go.isIdentifier c.table) ∧
      text = if cs.isEmpty then none
        else some (lookup ++ String.join (cs.map fun c => header c ++ accessor c)) := by
  cases cs with
  | nil =>
      show Except.ok none = Except.ok text ↔ _
      simp only [Except.ok.injEq]
      exact ⟨fun h => ⟨by simp, h.symm⟩, fun h => h.2.symm⟩
  | cons c cs =>
      rw [accessors?_of_ne_nil (by simp), bind_eq_ok_iff]
      constructor
      · rintro ⟨pairs, hpairs, htext⟩
        obtain ⟨hnames, rfl⟩ := mapM_accessorPair_eq_ok_iff.1 hpairs
        refine ⟨hnames, ?_⟩
        rw [← Except.ok.inj htext, List.map_map]
        rfl
      · rintro ⟨hnames, rfl⟩
        refine ⟨_, mapM_accessorPair_eq_ok_iff.2 ⟨hnames, rfl⟩, ?_⟩
        rw [List.map_map]
        rfl

end Table

namespace Cell

variable {settings : Settings}

/-- The type under which a binding is declared beside the known columns. -/
def declaredTy (columns : List Columns) (b : Binding) : Go.Ty :=
  if isEmptyTable columns b then ⟨.string, .table⟩ else Go.looseTy b.value

/-- What keeps the strict rule from giving a binding a type. An empty table needs no rule. -/
def strictObstacle? (strict : Bool) (columns : List Columns) (b : Binding) : Option Obstacle :=
  if strict && !isEmptyTable columns b then Go.obstacle? b.value else none

/-- Strictness may refuse a binding, and has no other effect on its declaration. -/
theorem declaration_eq (settings : Settings) (columns : List Columns) (b : Binding) :
    declaration settings columns b =
      match strictObstacle? settings.strict columns b with
      | some o => .error (.unsupported b.value o)
      | none => Go.declareAs (declaredTy columns b) b := by
  unfold declaration declaredTy strictObstacle?
  cases isEmptyTable columns b with
  | true => simp
  | false =>
      cases settings.strict with
      | false => rfl
      | true =>
          simp only [Go.declare, Go.strictTy]
          cases Go.obstacle? b.value <;> rfl

theorem declareAs_of_declaration {columns : List Columns} {b : Binding} {line : String}
    (h : declaration settings columns b = .ok line) :
    Go.declareAs (declaredTy columns b) b = .ok line := by
  rw [declaration_eq] at h
  split at h
  · cases h
  · exact h

theorem declarationsSection_of_ne_nil {columns : List Columns} {bs : List Binding} (h : bs ≠ []) :
    declarationsSection settings columns bs =
      bs.mapM (declaration settings columns) >>= fun lines =>
        pure (some (String.join (lines.map (· ++ "\n")))) := by
  obtain ⟨b, bs, rfl⟩ := List.exists_cons_of_ne_nil h
  rfl

theorem declarationsSection_eq_ok_iff {columns : List Columns} {bs : List Binding}
    {text : Option String} :
    declarationsSection settings columns bs = .ok text ↔ ∃ lines,
      List.Forall₂ (fun b line => declaration settings columns b = .ok line) bs lines ∧
        text = if bs.isEmpty then none else some (String.join (lines.map (· ++ "\n"))) := by
  cases bs with
  | nil =>
      show Except.ok none = Except.ok text ↔ _
      simp only [Except.ok.injEq]
      constructor
      · rintro rfl
        exact ⟨[], .nil, rfl⟩
      · rintro ⟨lines, -, rfl⟩
        rfl
  | cons b bs =>
      rw [declarationsSection_of_ne_nil (by simp), bind_eq_ok_iff]
      simp only [mapM_eq_ok_iff]
      constructor
      · rintro ⟨lines, hlines, htext⟩
        exact ⟨lines, hlines, (Except.ok.inj htext).symm⟩
      · rintro ⟨lines, hlines, rfl⟩
        exact ⟨lines, hlines, rfl⟩

/-- The section consists of the declarations, each ended by LF, in the order of the
bindings. -/
theorem exists_lines_of_declarationsSection {columns : List Columns} {bs : List Binding}
    {text : Option String} (h : declarationsSection settings columns bs = .ok text) :
    ∃ lines, List.Forall₂ (fun b line => declaration settings columns b = .ok line) bs lines ∧
      (∀ line ∈ lines.map String.toList, Text.OneLine line) ∧
      (text.getD "").toList = (lines.map String.toList).flatMap (· ++ ['\n']) := by
  obtain ⟨lines, hlines, rfl⟩ := declarationsSection_eq_ok_iff.1 h
  refine ⟨lines, hlines, ?_, ?_⟩
  · rw [List.forall_mem_map]
    exact forall_mem_of_forall₂ hlines fun b line hline =>
      Go.oneLine_declareAs (declareAs_of_declaration hline)
  · cases hlines <;> simp [String.toList_join, List.flatMap_map]

theorem exists_line_of_declarationsSection {columns : List Columns} {bs : List Binding}
    {text : Option String} {i : Nat} {b : Binding}
    (h : declarationsSection settings columns bs = .ok text) (hb : bs[i]? = some b) :
    ∃ line, declaration settings columns b = .ok line ∧
      (Text.lines (text.getD "").toList)[i]? = some line.toList := by
  obtain ⟨lines, hlines, honeLine, hsection⟩ := exists_lines_of_declarationsSection h
  obtain ⟨line, hline, hdeclared⟩ := exists_getElem?_of_forall₂ hlines hb
  refine ⟨line, hdeclared, ?_⟩
  rw [hsection, Text.lines_flatMap honeLine, List.getElem?_map, hline]
  rfl

theorem assemble_of_wantsSession {cell : Cell} (h : cell.wantsSession = true) :
    cell.assemble settings = .error .sessionRequested := by
  rw [assemble, h]
  rfl

/-- Only the sections that can fail are steps; the others are there for every cell. -/
theorem assemble_of_not_wantsSession {cell : Cell} (h : cell.wantsSession = false) :
    cell.assemble settings = cell.packageSection settings >>= fun package =>
      declarationsSection settings cell.tables.2 cell.tables.1 >>= fun declarations =>
        Table.accessors? cell.tables.2 >>= fun accessors =>
          pure { package, imports := Go.importBlock? cell.imports, body := cell.bodySection,
                 declarations, accessors } := by
  rw [assemble, h]
  rfl

/-- Each section of a program comes from its own part of the cell. -/
theorem assemble_eq_ok_iff {cell : Cell} {p : Program} :
    cell.assemble settings = .ok p ↔ cell.wantsSession = false ∧
      cell.packageSection settings = .ok p.package ∧
      declarationsSection settings cell.tables.2 cell.tables.1 = .ok p.declarations ∧
      Table.accessors? cell.tables.2 = .ok p.accessors ∧
      p.imports = Go.importBlock? cell.imports ∧ p.body = cell.bodySection := by
  cases hsession : cell.wantsSession with
  | true => simp [assemble_of_wantsSession hsession]
  | false =>
      simp only [assemble_of_not_wantsSession hsession, bind_eq_ok_iff, true_and]
      constructor
      · rintro ⟨package, hpackage, declarations, hdeclarations, accessors, haccessors, hp⟩
        cases hp
        exact ⟨hpackage, hdeclarations, haccessors, rfl, rfl⟩
      · rintro ⟨hpackage, hdeclarations, haccessors, himports, hbody⟩
        refine ⟨_, hpackage, _, hdeclarations, _, haccessors, ?_⟩
        rw [← himports, ← hbody]
        rfl

end Cell

end GoCell
