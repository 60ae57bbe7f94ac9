import GoCell.Proofs.Go.LooseTyping
import GoCell.Proofs.Program.BodyText

/-!
Why a cell is not made into a program. The reasons stand in a fixed order, and the first
that holds is the error; the types under which bindings are declared always fit the shape
of their values, so only names, the strict rule and floats can be at fault.
-/

namespace GoCell

/-- Whether an obstacle is that a value does not have the shape of its type. -/
def Obstacle.isMismatch : Obstacle → Bool
  | .sequenceAsScalar | .scalarAsSequence => true
  | _ => false

namespace Go

theorem isMismatch_of_rowObstacle? {row : Value} {o : Obstacle} (h : rowObstacle? row = some o) :
    o.isMismatch = false := by
  unfold rowObstacle? at h
  split at h
  · obtain ⟨cell, -, rfl⟩ := Option.map_eq_some_iff.1 h
    rfl
  · cases h
    rfl

theorem isMismatch_of_vectorObstacle? {items : List Value} {o : Obstacle}
    (h : vectorObstacle? items = some o) : o.isMismatch = false := by
  unfold vectorObstacle? at h
  repeat' split at h
  all_goals
    cases h
    try rfl

/-- The strict rule leaves shapes to the types that it gives. -/
theorem isMismatch_of_obstacle? {v : Value} {o : Obstacle} (h : obstacle? v = some o) :
    o.isMismatch = false := by
  unfold obstacle? at h
  split at h
  · split at h
    · obtain ⟨row, -, hrow⟩ := List.exists_of_findSome?_eq_some h
      exact isMismatch_of_rowObstacle? hrow
    · exact isMismatch_of_vectorObstacle? h
  · split at h
    · cases h
    · cases h
      rfl

/-- Under a type of its shape, a value is refused only for its first float that is not
finite. -/
theorem literal_eq_error_iff {ty : Ty} {v : Value} {e : GenerationError}
    (hshape : ∃ text, shapedLiteral ty v = .ok text) :
    literal ty v = .error e ↔
      ∃ x, v.floats.find? (!·.isFinite) = some x ∧ .unsupported (.float x) .notFinite = e := by
  obtain ⟨text, htext⟩ := hshape
  rw [literal, firstNonFinite?_eq_find?]
  cases v.floats.find? (!·.isFinite) with
  | none => simp [htext]
  | some x => simp

end Go

namespace Cell

/-! ### Bindings -/

/-- Whether an empty sequence is bound to the name of a table whose columns are known. -/
def IsEmptyTable (columns : List Columns) (b : Binding) : Prop :=
  b.value = .seq [] ∧ ∃ c ∈ columns, c.table = b.name

/-- Whether the strict rule is in force for a binding and gives its value no type. -/
def StrictlyRefused (strict : Bool) (columns : List Columns) (b : Binding) (o : Obstacle) : Prop :=
  strict = true ∧ ¬IsEmptyTable columns b ∧ Go.obstacle? b.value = some o

/-- Why a binding is not declared. A reason counts only where the ones before it do not
hold. -/
inductive DeclarationFails (strict : Bool) (columns : List Columns) (b : Binding) :
    GenerationError → Prop
  | refused {o : Obstacle} (h : StrictlyRefused strict columns b o) :
      DeclarationFails strict columns b (.unsupported b.value o)
  | name (htyped : ∀ o, ¬StrictlyRefused strict columns b o)
      (h : Go.isIdentifier b.name = false) :
      DeclarationFails strict columns b (.invalidName .binding b.name)
  | notFinite {x : Binary64} (htyped : ∀ o, ¬StrictlyRefused strict columns b o)
      (hname : Go.isIdentifier b.name = true)
      (h : b.value.floats.find? (!·.isFinite) = some x) :
      DeclarationFails strict columns b (.unsupported (.float x) .notFinite)

section Binding

variable {columns : List Columns} {b : Binding}

theorem isEmptyTable_iff : isEmptyTable columns b = true ↔ IsEmptyTable columns b := by
  unfold isEmptyTable IsEmptyTable
  split
  · next hvalue => simp [hvalue]
  · next hvalue => exact iff_of_false (by simp) fun h => hvalue h.1

theorem strictObstacle?_eq_some_iff {strict : Bool} {o : Obstacle} :
    strictObstacle? strict columns b = some o ↔ StrictlyRefused strict columns b o := by
  rw [StrictlyRefused, ← isEmptyTable_iff, strictObstacle?]
  cases strict <;> cases isEmptyTable columns b <;> simp

theorem exists_shapedLiteral_declaredTy :
    ∃ text, Go.shapedLiteral (declaredTy columns b) b.value = .ok text := by
  unfold declaredTy
  split
  · next hempty =>
    rw [(isEmptyTable_iff.1 hempty).1]
    exact ⟨_, rfl⟩
  · exact Go.exists_shapedLiteral_looseTy b.value

theorem declaration_eq_error_iff {settings : Settings} {e : GenerationError} :
    declaration settings columns b = .error e ↔
      DeclarationFails settings.strict columns b e := by
  rw [declaration_eq]
  split
  · next o ho =>
    have hrefused := strictObstacle?_eq_some_iff.1 ho
    constructor
    · rintro ⟨⟩
      exact .refused hrefused
    · rintro (h | htyped | htyped)
      · rw [strictObstacle?_eq_some_iff.2 h] at ho
        rw [Option.some.inj ho]
      · exact absurd hrefused (htyped o)
      · exact absurd hrefused (htyped o)
  · next hnone =>
    have htyped : ∀ o, ¬StrictlyRefused settings.strict columns b o := by
      intro o ho
      rw [strictObstacle?_eq_some_iff.2 ho] at hnone
      cases hnone
    rw [Go.declareAs_eq_error_iff, Go.literal_eq_error_iff exists_shapedLiteral_declaredTy]
    constructor
    · rintro (⟨hname, rfl⟩ | ⟨hname, x, hx, rfl⟩)
      · exact .name htyped hname
      · exact .notFinite htyped hname hx
    · rintro (h | ⟨-, hname⟩ | ⟨-, hname, hx⟩)
      · exact absurd h (htyped _)
      · exact .inl ⟨hname, rfl⟩
      · exact .inr ⟨hname, _, hx, rfl⟩

/-- What a binding needs in order to be declared. -/
theorem forall_not_declarationFails_iff {strict : Bool} :
    (∀ e, ¬DeclarationFails strict columns b e) ↔
      (∀ o, ¬StrictlyRefused strict columns b o) ∧ Go.isIdentifier b.name = true ∧
        b.value.AllFinite := by
  constructor
  · intro h
    have htyped : ∀ o, ¬StrictlyRefused strict columns b o := fun o ho => h _ (.refused ho)
    have hname : Go.isIdentifier b.name = true := by
      by_contra hname
      exact h _ (.name htyped (by simpa using hname))
    refine ⟨htyped, hname, ?_⟩
    intro x hx
    by_contra hfinite
    cases hfind : b.value.floats.find? (!·.isFinite) with
    | none => exact hfinite (by simpa using List.find?_eq_none.1 hfind x hx)
    | some y => exact h _ (.notFinite htyped hname hfind)
  · rintro ⟨htyped, hname, hfinite⟩ e he
    cases he with
    | refused h => exact htyped _ h
    | name _ h =>
        rw [hname] at h
        cases h
    | @notFinite x _ _ h =>
        have hx := hfinite x (List.mem_of_find?_eq_some h)
        simpa [hx] using List.find?_some h

end Binding

/-! ### Cells -/

/-- Whether a cell asks for a session, by a name that stands for one. -/
def AsksSession (cell : Cell) : Prop :=
  ∃ name, cell.session = some name ∧ name ≠ "" ∧ name ≠ "none"

/-- The name of a package whose body declares none: the one that is given, without the
blanks at its ends, or the default one where none is given or a blank one. -/
def IsPackageName (settings : Settings) (cell : Cell) (name : String) : Prop :=
  (∃ given, cell.package = some given ∧ Text.trim given.toList ≠ [] ∧
      name.toList = Text.trim given.toList) ∨
    (∀ given, cell.package = some given → Text.trim given.toList = []) ∧ name = settings.package

/-- Whether a package clause has to be written and its name cannot be. -/
def PackageFails (settings : Settings) (cell : Cell) (name : String) : Prop :=
  ¬Go.HasClause cell.body.toList ∧ IsPackageName settings cell name ∧ Go.isIdentifier name = false

/-- Why the columns of a table are not declared. -/
def TableFails (c : Columns) (e : GenerationError) : Prop :=
  Go.isIdentifier c.table = false ∧ .invalidName .table c.table = e

/-- Why a cell is not made into a program. A reason counts only where the ones before it
do not hold, and of the bindings and the tables the first one at fault counts. -/
inductive Fails (settings : Settings) (cell : Cell) : GenerationError → Prop
  | session (h : cell.AsksSession) : Fails settings cell .sessionRequested
  | package {name : String} (hsession : ¬cell.AsksSession) (h : PackageFails settings cell name) :
      Fails settings cell (.invalidName .package name)
  | binding {e : GenerationError} (hsession : ¬cell.AsksSession)
      (hpackage : ∀ name, ¬PackageFails settings cell name)
      (h : FirstFails (DeclarationFails settings.strict cell.tables.2) cell.tables.1 e) :
      Fails settings cell e
  | table {e : GenerationError} (hsession : ¬cell.AsksSession)
      (hpackage : ∀ name, ¬PackageFails settings cell name)
      (hbindings : ∀ b ∈ cell.tables.1, ∀ e, ¬DeclarationFails settings.strict cell.tables.2 b e)
      (h : FirstFails TableFails cell.tables.2 e) : Fails settings cell e

variable {settings : Settings} {cell : Cell}

theorem wantsSession_iff : cell.wantsSession = true ↔ cell.AsksSession := by
  unfold wantsSession AsksSession
  cases cell.session <;> simp

theorem isPackageName_iff {name : String} :
    IsPackageName settings cell name ↔ cell.packageName settings = name := by
  rw [IsPackageName, packageName, eq_comm (a := name)]
  cases cell.package with
  | none => simp
  | some given =>
      cases htrim : Text.trim given.toList with
      | nil => simp [htrim]
      | cons c r =>
          have hname : name.toList = c :: r ↔ String.ofList (c :: r) = name := by
            rw [← String.toList_inj, String.toList_ofList, eq_comm]
          simp [htrim, hname]

theorem packageSection_eq_error_iff {e : GenerationError} :
    cell.packageSection settings = .error e ↔
      ∃ name, PackageFails settings cell name ∧ .invalidName .package name = e := by
  simp only [PackageFails, ← Go.fst_splitClause_eq_none_iff, isPackageName_iff]
  unfold packageSection
  split
  · next clause hclause => simp [hclause]
  · next hclause =>
    rw [Go.checkName_bind]
    cases hname : Go.isIdentifier (cell.packageName settings) with
    | true =>
        refine iff_of_false (by simp [pure, Except.pure]) ?_
        rintro ⟨name, ⟨-, rfl, hnot⟩, -⟩
        rw [hname] at hnot
        cases hnot
    | false =>
        simp only [Bool.false_eq_true, if_false, Except.error.injEq]
        constructor
        · rintro rfl
          exact ⟨_, ⟨hclause, rfl, hname⟩, rfl⟩
        · rintro ⟨name, ⟨-, rfl, -⟩, he⟩
          exact he

theorem declarationsSection_eq_error_iff {columns : List Columns} {bs : List Binding}
    {e : GenerationError} :
    declarationsSection settings columns bs = .error e ↔
      FirstFails (DeclarationFails settings.strict columns) bs e := by
  rw [← mapM_eq_error_iff fun b e => declaration_eq_error_iff]
  -- Without bindings there is no section, and no first failure either.
  by_cases hne : bs = []
  · subst hne
    exact iff_of_false nofun nofun
  · rw [declarationsSection_of_ne_nil hne, bind_eq_error_iff]
    exact or_iff_left nofun

theorem accessorPair_eq_error_iff {c : Columns} {e : GenerationError} :
    Table.accessorPair c = .error e ↔ TableFails c e := by
  rw [Table.accessorPair, Go.checkName_bind, TableFails]
  cases Go.isIdentifier c.table with
  | true => simp [pure, Except.pure]
  | false => simp

theorem accessors?_eq_error_iff {cs : List Columns} {e : GenerationError} :
    Table.accessors? cs = .error e ↔ FirstFails TableFails cs e := by
  rw [← mapM_eq_error_iff fun c e => accessorPair_eq_error_iff]
  by_cases hne : cs = []
  · subst hne
    exact iff_of_false nofun nofun
  · rw [Table.accessors?_of_ne_nil hne, bind_eq_error_iff]
    exact or_iff_left nofun

theorem exists_packageSection_eq_ok_iff :
    (∃ package, cell.packageSection settings = .ok package) ↔
      ∀ name, ¬PackageFails settings cell name := by
  rw [exists_eq_ok_iff]
  simp only [ne_eq, packageSection_eq_error_iff, not_exists, not_and]
  exact ⟨fun h name hname => h _ name hname rfl, fun h _ name hname => absurd hname (h name)⟩

theorem exists_declarationsSection_eq_ok_iff {columns : List Columns} {bs : List Binding} :
    (∃ text, declarationsSection settings columns bs = .ok text) ↔
      ∀ b ∈ bs, ∀ e, ¬DeclarationFails settings.strict columns b e := by
  rw [exists_eq_ok_iff, ← forall_not_firstFails_iff]
  simp only [ne_eq, declarationsSection_eq_error_iff]

/-- A cell fails for the first reason that holds. -/
theorem assemble_eq_error_iff {e : GenerationError} :
    cell.assemble settings = .error e ↔ Fails settings cell e := by
  cases hsession : cell.wantsSession with
  | true =>
      have hasks := wantsSession_iff.1 hsession
      rw [assemble_of_wantsSession hsession]
      constructor
      · rintro ⟨⟩
        exact .session hasks
      · rintro (h | hnot | hnot | hnot)
        · rfl
        all_goals exact absurd hasks hnot
  | false =>
      have hasks : ¬cell.AsksSession := by
        rw [← wantsSession_iff, hsession]
        decide
      -- A step that fails says that the ones before it succeeded, so none of their reasons holds.
      simp only [assemble_of_not_wantsSession hsession, bind_eq_error_iff, pure, Except.pure,
        reduceCtorEq, and_false, exists_false, or_false, exists_and_right,
        packageSection_eq_error_iff, exists_packageSection_eq_ok_iff,
        declarationsSection_eq_error_iff, exists_declarationsSection_eq_ok_iff,
        accessors?_eq_error_iff]
      constructor
      · rintro (⟨name, hname, rfl⟩ | ⟨hpackage, hbinding | ⟨hbindings, htable⟩⟩)
        · exact .package hasks hname
        · exact .binding hasks hpackage hbinding
        · exact .table hasks hpackage hbindings htable
      · rintro (hsession | ⟨-, hname⟩ | ⟨-, hpackage, hbinding⟩ | ⟨-, hpackage, hbindings, htable⟩)
        · exact absurd hsession hasks
        · exact .inl ⟨_, hname, rfl⟩
        · exact .inr ⟨hpackage, .inl hbinding⟩
        · exact .inr ⟨hpackage, .inr ⟨hbindings, htable⟩⟩

/-- What a cell needs in order to be made into a program. -/
structure IsWritable (settings : Settings) (cell : Cell) : Prop where
  session : ¬cell.AsksSession
  package : ∀ name, ¬PackageFails settings cell name
  bindings : ∀ b ∈ cell.tables.1, (∀ o, ¬StrictlyRefused settings.strict cell.tables.2 b o) ∧
    Go.isIdentifier b.name = true ∧ b.value.AllFinite
  tables : ∀ c ∈ cell.tables.2, Go.isIdentifier c.table = true

theorem forall_not_fails_iff : (∀ e, ¬Fails settings cell e) ↔ IsWritable settings cell := by
  constructor
  · intro h
    have hsession : ¬cell.AsksSession := fun hasks => h _ (.session hasks)
    have hpackage : ∀ name, ¬PackageFails settings cell name := fun _ hname =>
      h _ (.package hsession hname)
    have hbindings := forall_not_firstFails_iff.1 fun e he => h e (.binding hsession hpackage he)
    have htables := forall_not_firstFails_iff.1 fun e he =>
      h e (.table hsession hpackage hbindings he)
    refine ⟨hsession, hpackage, ?_, ?_⟩
    · exact fun b hb => forall_not_declarationFails_iff.1 (hbindings b hb)
    · intro c hc
      by_contra hname
      exact htables c hc _ ⟨by simpa using hname, rfl⟩
  · intro h e he
    have hbindings : ∀ b ∈ cell.tables.1, ∀ e,
        ¬DeclarationFails settings.strict cell.tables.2 b e := fun b hb =>
      forall_not_declarationFails_iff.2 (h.bindings b hb)
    have htables : ∀ c ∈ cell.tables.2, ∀ e, ¬TableFails c e := by
      rintro c hc e ⟨hname, -⟩
      rw [h.tables c hc] at hname
      cases hname
    cases he with
    | session hasks => exact h.session hasks
    | package _ hname => exact h.package _ hname
    | binding _ _ hfirst => exact forall_not_firstFails_iff.2 hbindings e hfirst
    | table _ _ _ hfirst => exact forall_not_firstFails_iff.2 htables e hfirst

/-- The imports stand on their own. -/
theorem assemble_imports (settings : Settings) (cell : Cell) (imports : List String) :
    { cell with imports }.assemble settings =
      (cell.assemble settings).map fun p => { p with imports := Go.importBlock? imports } := by
  cases hsession : cell.wantsSession with
  | true =>
      rw [assemble_of_wantsSession hsession]
      exact assemble_of_wantsSession hsession
  | false =>
      have hwith : ({ cell with imports } : Cell).wantsSession = false := hsession
      have hpackage : ({ cell with imports } : Cell).packageSection settings =
        cell.packageSection settings := rfl
      have htables : ({ cell with imports } : Cell).tables = cell.tables := rfl
      rw [assemble_of_not_wantsSession hsession, assemble_of_not_wantsSession hwith, hpackage,
        htables]
      cases cell.packageSection settings with
      | error e => rfl
      | ok package =>
          cases declarationsSection settings cell.tables.2 cell.tables.1 with
          | error e => rfl
          | ok declarations => cases Table.accessors? cell.tables.2 <;> rfl

/-- No cell is at fault for a value that does not have the shape of its type. -/
theorem isMismatch_of_fails {v : Value} {o : Obstacle}
    (h : Fails settings cell (.unsupported v o)) : o.isMismatch = false := by
  cases h with
  | binding _ _ hfirst =>
      obtain ⟨-, b, -, -, -, hb⟩ := hfirst
      cases hb with
      | refused h => exact Go.isMismatch_of_obstacle? h.2.2
      | notFinite => rfl
  | table _ _ _ hfirst =>
      obtain ⟨-, c, -, -, -, -, hc⟩ := hfirst
      cases hc

/-- A cell fails for the first reason that holds and for no other, and where none does
there is a program. The imports have no part in it, and no value is ever written under a
type of another shape. -/
theorem assemble_outcome (settings : Settings) (cell : Cell) :
    (∀ e, cell.assemble settings = .error e ↔ Fails settings cell e) ∧
    ((∃ p, cell.assemble settings = .ok p) ↔ IsWritable settings cell) ∧
    (∀ imports, { cell with imports }.assemble settings =
      (cell.assemble settings).map fun p => { p with imports := Go.importBlock? imports }) ∧
    ∀ v, cell.assemble settings ≠ .error (.unsupported v .sequenceAsScalar) ∧
      cell.assemble settings ≠ .error (.unsupported v .scalarAsSequence) := by
  refine ⟨fun e => assemble_eq_error_iff, ?_, assemble_imports settings cell, fun v => ⟨?_, ?_⟩⟩
  · rw [exists_eq_ok_iff, ← forall_not_fails_iff]
    simp only [ne_eq, assemble_eq_error_iff]
  · exact fun h => Bool.noConfusion (isMismatch_of_fails (assemble_eq_error_iff.1 h))
  · exact fun h => Bool.noConfusion (isMismatch_of_fails (assemble_eq_error_iff.1 h))

end Cell

end GoCell
