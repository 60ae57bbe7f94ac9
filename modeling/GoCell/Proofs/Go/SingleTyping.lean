import GoCell.Proofs.Go.StrictDeclaration
import Mathlib.Data.Set.List

/-!
Typing rules for the values that have a single Go type, and the strict rule as their
decision. A value without such a type is refused as a whole, whatever part of it stands in
the way.
-/

namespace GoCell.Go

/-- Numbers and texts have a type each, sequences of one of them the type of a vector, and
rows of texts, of any lengths, the type of a table. A sequence without elements counts as
one of integers. -/
inductive HasTy : Value → Ty → Prop
  | int (n : Int64) : HasTy (.int n) ⟨.int, .scalar⟩
  | float (x : Binary64) : HasTy (.float x) ⟨.float32, .scalar⟩
  | text (s : String) : HasTy (.text s) ⟨.string, .scalar⟩
  | ints (ns : List Int64) : HasTy (.seq (ns.map .int)) ⟨.int, .vector⟩
  | floats (x : Binary64) (xs : List Binary64) :
    HasTy (.seq ((x :: xs).map .float)) ⟨.float32, .vector⟩
  | texts (s : String) (ss : List String) : HasTy (.seq ((s :: ss).map .text)) ⟨.string, .vector⟩
  | rows (row : List String) (rows : List (List String)) :
    HasTy (.seq ((row :: rows).map fun cells => .seq (cells.map .text))) ⟨.string, .table⟩

/-! ### Values with a single type are accepted -/

theorem vectorBase_of_uniform {items : List Value} {base : Base} (hne : items ≠ [])
    (h : ∀ item ∈ items, scalarBase item = base) : vectorBase items = base := by
  induction items with
  | nil => exact absurd rfl hne
  | cons first items ih =>
      rw [List.forall_mem_cons] at h
      have hcons : vectorBase (first :: items) = base.max (vectorBase items) := by
        rw [← h.1]
        rfl
      rw [hcons]
      cases items with
      | nil => cases base <;> rfl
      | cons second items =>
          rw [ih (by simp) h.2]
          cases base <;> rfl

/-- A vector of one kind of typed elements has its type. -/
theorem strictTy_vector {items : List Value} {base : Base} (hne : items ≠ [])
    (h : ∀ item ∈ items, isTyped item ∧ scalarBase item = base) :
    strictTy (.seq items) = .ok ⟨base, .vector⟩ := by
  have hbase := vectorBase_of_uniform hne fun item hitem => (h item hitem).2
  have hsingle : ∀ item ∈ items, item.isSeq = false := by
    intro item hitem
    have htyped := (h item hitem).1
    cases item with
    | seq _ => cases htyped
    | _ => rfl
  have htable : (Value.seq items).isTable = false := by
    cases items with
    | nil => rfl
    | cons first items =>
        have hfirst := hsingle first (List.mem_cons_self ..)
        cases first with
        | seq _ => cases hfirst
        | _ => rfl
  have hobstacle : vectorObstacle? items = none := by
    have hnested : items.any Value.isSeq = false := by
      simpa using hsingle
    have huntyped : items.find? (!isTyped ·) = none := by
      simpa using fun item hitem => (h item hitem).1
    have hmixed : items.any (scalarBase · != vectorBase items) = false := by
      simpa [hbase] using fun item hitem => (h item hitem).2
    simp [vectorObstacle?, hnested, huntyped, hmixed]
  simp [strictTy, obstacle?, looseTy, htable, hobstacle, hbase]

theorem strictTy_rows (row : List String) (rows : List (List String)) :
    strictTy (.seq ((row :: rows).map fun cells => .seq (cells.map .text))) =
      .ok ⟨.string, .table⟩ := by
  have hrow (cells : List String) : rowObstacle? (.seq (cells.map .text)) = none := by
    simp [rowObstacle?, isText]
  have hobstacle : ((row :: rows).map fun cells => Value.seq (cells.map .text)).findSome?
      rowObstacle? = none := by
    rw [List.findSome?_eq_none_iff, List.forall_mem_map]
    exact fun cells _ => hrow cells
  have htable : (Value.seq ((row :: rows).map fun cells => .seq (cells.map .text))).isTable := rfl
  rw [strictTy, obstacle?, if_pos htable, hobstacle]
  rfl

theorem strictTy_of_hasTy {v : Value} {ty : Ty} (h : HasTy v ty) : strictTy v = .ok ty := by
  cases h with
  | int n => rfl
  | float x => rfl
  | text s => rfl
  | ints ns =>
      cases ns with
      | nil => rfl
      | cons n ns => exact strictTy_vector (by simp) (by simp [isTyped, scalarBase])
  | floats x xs => exact strictTy_vector (by simp) (by simp [isTyped, scalarBase])
  | texts s ss => exact strictTy_vector (by simp) (by simp [isTyped, scalarBase])
  | rows row rows => exact strictTy_rows row rows

/-! ### Accepted values have a single type -/

/-- Values that are all made by a function are the values of a list. -/
theorem exists_map_eq {α : Type} {make : α → Value} {vs : List Value}
    (h : ∀ v ∈ vs, ∃ a, make a = v) : ∃ as : List α, as.map make = vs := by
  have hrange : vs ∈ Set.range (List.map make) := by
    rw [Set.range_list_map]
    exact h
  exact hrange

/-- Whether a value is of the kind that an element type is for. -/
def Base.IsOf : Base → Value → Prop
  | .int, v => ∃ n, .int n = v
  | .float32, v => ∃ x, .float x = v
  | .string, v => ∃ s, .text s = v

theorem isOf_of_isTyped {v : Value} (h : isTyped v) : (scalarBase v).IsOf v := by
  cases v with
  | int n => exact ⟨n, rfl⟩
  | float x => exact ⟨x, rfl⟩
  | text s => exact ⟨s, rfl⟩
  | _ => cases h

theorem hasTy_vector {items : List Value} {base : Base} (hne : items ≠ [])
    (h : ∀ item ∈ items, isTyped item ∧ scalarBase item = base) :
    HasTy (.seq items) ⟨base, .vector⟩ := by
  have hkind : ∀ item ∈ items, base.IsOf item := by
    intro item hitem
    obtain ⟨htyped, rfl⟩ := h item hitem
    exact isOf_of_isTyped htyped
  cases base with
  | int =>
      obtain ⟨ns, rfl⟩ := exists_map_eq hkind
      exact .ints ns
  | float32 =>
      obtain ⟨xs, rfl⟩ := exists_map_eq hkind
      obtain ⟨x, xs, rfl⟩ := List.exists_cons_of_ne_nil (List.map_eq_nil_iff.not.1 hne)
      exact .floats x xs
  | string =>
      obtain ⟨ss, rfl⟩ := exists_map_eq hkind
      obtain ⟨s, ss, rfl⟩ := List.exists_cons_of_ne_nil (List.map_eq_nil_iff.not.1 hne)
      exact .texts s ss

theorem hasTy_rows {rows : List Value} (hne : rows ≠ [])
    (h : ∀ row ∈ rows, ∃ cells, row = .seq cells ∧ ∀ cell ∈ cells, isText cell) :
    HasTy (.seq rows) ⟨.string, .table⟩ := by
  have hrow : ∀ row ∈ rows, ∃ cells : List String, Value.seq (cells.map .text) = row := by
    intro row hmem
    obtain ⟨cells, rfl, hcells⟩ := h row hmem
    have htexts : ∀ cell ∈ cells, Base.string.IsOf cell := by
      intro cell hcell
      rw [← scalarBase_of_isText (hcells cell hcell)]
      exact isOf_of_isTyped (isTyped_of_isText (hcells cell hcell))
    obtain ⟨ss, rfl⟩ := exists_map_eq htexts
    exact ⟨ss, rfl⟩
  obtain ⟨table, rfl⟩ := exists_map_eq hrow
  obtain ⟨first, table, rfl⟩ := List.exists_cons_of_ne_nil (List.map_eq_nil_iff.not.1 hne)
  exact .rows first table

theorem hasTy_of_strictTy {v : Value} {ty : Ty} (h : strictTy v = .ok ty) : HasTy v ty := by
  by_cases hempty : v = .seq []
  · subst hempty
    cases h
    exact .ints []
  · rcases strictTy_cases h with ⟨htyped, rfl⟩ | ⟨items, rfl, rfl, hitems⟩ | ⟨rows, rfl, rfl, hrows⟩
    · cases v with
      | int n => exact .int n
      | float x => exact .float x
      | text s => exact .text s
      | _ => cases htyped
    · exact hasTy_vector (by simpa using hempty) hitems
    · exact hasTy_rows (by simpa using hempty) hrows

/-! ### The strict rule decides -/

theorem strictTy_eq_ok_iff {v : Value} {ty : Ty} : strictTy v = .ok ty ↔ HasTy v ty :=
  ⟨hasTy_of_strictTy, strictTy_of_hasTy⟩

/-- The type of a value that has a single one is its loose type. -/
theorem looseTy_of_hasTy {v : Value} {ty : Ty} (h : HasTy v ty) : looseTy v = ty :=
  (obstacle?_eq_none_of_strictTy (strictTy_of_hasTy h)).2.symm

/-- The strict rule finds the type of a value by the typing rules, which is also its loose
type, or else there is none and the value is refused as a whole. -/
theorem strictTy_decides (v : Value) :
    (∃ ty, HasTy v ty ∧ strictTy v = .ok ty ∧ looseTy v = ty) ∨
      (∀ ty, ¬HasTy v ty) ∧ ∃ o, strictTy v = .error (.unsupported v o) ∧
        (GenerationError.unsupported v o).message =
          "unsupported type for " ++ v.display ++ ": " ++ o.text := by
  cases ho : obstacle? v with
  | none =>
      have hok : strictTy v = .ok (looseTy v) := by rw [strictTy, ho]
      exact .inl ⟨looseTy v, hasTy_of_strictTy hok, hok, rfl⟩
  | some o =>
      have herror : strictTy v = .error (.unsupported v o) := by rw [strictTy, ho]
      refine .inr ⟨fun ty hty => ?_, o, herror, rfl⟩
      rw [strictTy_of_hasTy hty] at herror
      cases herror

end GoCell.Go
