import GoCell.Proofs.Go.StrictDeclaration
import GoCell.Proofs.Value.Floats

/-!
The loose rule and the writing of literals agree. The type of a vector covers all its
elements, so each of them is written as a literal of that type and reads back. In a
table every cell keeps its own type: the literal is one of the declared type only
where the table holds no number.
-/

namespace GoCell.Go

/-! ### What literals denote -/

/-- Whether an atom is the literal of a text. -/
def Atom.IsTextOf : Atom → String → Prop
  | .text bytes, s => textOfBytes? bytes = some s
  | _, _ => False

/-- Whether an atom is what an element type makes of a value: an integer as it is, or as
the double nearest to it, a double to six places, and everything as its display text. -/
def Atom.Fits (base : Base) (a : Atom) (v : Value) : Prop :=
  match base, v with
  | .int, .int n => a.Denotes (.int n)
  | .float32, .int n => a.Denotes (.float (.ofInt n.toInt))
  | .float32, .float x => a.Denotes (.float x)
  | .string, v => a.IsTextOf v.display
  | _, _ => False

/-- Whether a value is written as a number. -/
def isNumber : Value → Bool
  | .int _ | .float _ => true
  | _ => false

/-! ### Element types of vectors -/

theorem Base.max_assoc (a b c : Base) : (a.max b).max c = a.max (b.max c) := by
  cases a <;> cases b <;> cases c <;> rfl

theorem Base.max_left_comm (a b c : Base) : a.max (b.max c) = b.max (a.max c) := by
  cases a <;> cases b <;> cases c <;> rfl

theorem Base.max_self (a : Base) : a.max a = a := by
  cases a <;> rfl

/-- The type of a vector covers the types of its elements. -/
theorem max_vectorBase_of_mem {items : List Value} {item : Value} (h : item ∈ items) :
    (scalarBase item).max (vectorBase items) = vectorBase items := by
  induction items with
  | nil => cases h
  | cons first items ih =>
      have hcons : vectorBase (first :: items) = (scalarBase first).max (vectorBase items) := rfl
      rw [hcons]
      rcases List.mem_cons.1 h with rfl | h
      · rw [← Base.max_assoc, Base.max_self]
      · rw [Base.max_left_comm, ih h]

/-! ### Atoms -/

theorem isTextOf_ofText (s : String) : (Atom.ofText s).IsTextOf s := textOfBytes?_utf8 s

theorem base_ofBinary64 (x : Binary64) : (Atom.ofBinary64 x).base = .float32 := by
  cases x <;> rfl

/-- Under a type that covers its own, a value is written as an atom of that type. -/
theorem base_ofValue_of_max {base : Base} {v : Value} (h : (scalarBase v).max base = base) :
    (Atom.ofValue base v).base = base := by
  cases base with
  | int =>
      cases v with
      | int n => rfl
      | _ => cases h
  | float32 =>
      cases v with
      | int n => exact base_ofBinary64 _
      | float x => exact base_ofBinary64 x
      | _ => cases h
  | string => cases v <;> rfl

theorem fits_ofValue {base : Base} {v : Value} (hfinite : v.AllFinite)
    (h : (scalarBase v).max base = base) : (Atom.ofValue base v).Fits base v := by
  have hnone := (firstNonFinite?_eq_none_iff v).2 hfinite
  cases base with
  | int =>
      cases v with
      | int n => exact denotes_ofValue rfl hnone
      | _ => cases h
  | float32 =>
      cases v with
      | int n =>
          have hofInt := Binary64.isFinite_ofInt (natAbs_toInt_lt n)
          exact denotes_ofValue (v := .float (.ofInt n.toInt)) rfl
            (by rw [firstNonFinite?, if_pos hofInt])
      | float x => exact denotes_ofValue rfl hnone
      | _ => cases h
  | string => cases v <;> exact isTextOf_ofText _

/-- A cell is written as the text of its display unless it is a number. -/
theorem isTextOf_ofCell_iff (cell : Value) :
    (Atom.ofCell cell).IsTextOf cell.display ↔ isNumber cell = false := by
  cases cell with
  | int n => simp [Atom.ofCell, scalarBase, Atom.ofValue, Atom.IsTextOf, isNumber]
  | float x =>
      cases x <;>
        simp [Atom.ofCell, scalarBase, Atom.ofValue, Atom.ofBinary64, Atom.IsTextOf, isNumber]
  | _ => exact iff_of_true (isTextOf_ofText _) rfl

theorem base_ofCell_eq_string_iff (cell : Value) :
    (Atom.ofCell cell).base = .string ↔ isNumber cell = false := by
  cases cell with
  | int n => exact iff_of_false (by rintro ⟨⟩) (by rintro ⟨⟩)
  | float x =>
      rw [Atom.ofCell, scalarBase, Atom.ofValue, base_ofBinary64]
      exact iff_of_false (by rintro ⟨⟩) (by rintro ⟨⟩)
  | _ => exact iff_of_true rfl rfl

/-! ### Literals -/

/-- What a literal of a value under a type has to be. Of a single value and of a vector,
every element is a literal of the type. Of a table, the cells that are literals of their
display texts are those that are no numbers, and the type is met where no cell is one. -/
def Literal.Agrees (lit : Literal) (ty : Ty) (v : Value) : Prop :=
  match ty.shape, lit, v with
  | .scalar, .atom a, v => lit.HasType ty ∧ a.Fits ty.base v
  | .vector, .vector _ items, .seq vs => lit.HasType ty ∧ List.Forall₂ (Atom.Fits ty.base) items vs
  | .table, .table rows, .seq vs =>
    List.Forall₂ (fun cells row => List.Forall₂ (fun a cell =>
      a.IsTextOf cell.display ↔ isNumber cell = false) cells (rowCells row)) rows vs ∧
    (lit.HasType ty ↔ ∀ row ∈ vs, ∀ cell ∈ rowCells row, isNumber cell = false)
  | _, _, _ => False

/-- The three shapes of the loose rule. -/
theorem looseTy_cases (v : Value) :
    (v.isSeq = false ∧ looseTy v = ⟨scalarBase v, .scalar⟩) ∨
    (∃ items, v = .seq items ∧ looseTy v = ⟨vectorBase items, .vector⟩) ∨
    (∃ rows, v = .seq rows ∧ looseTy v = ⟨.string, .table⟩) := by
  cases v with
  | seq items =>
      right
      by_cases htable : (Value.seq items).isTable
      · exact .inr ⟨items, rfl, by rw [looseTy, if_pos htable]⟩
      · exact .inl ⟨items, rfl, by rw [looseTy, if_neg htable]⟩
  | _ => exact .inl ⟨rfl, rfl⟩

theorem agrees_scalar {v : Value} (hsingle : v.isSeq = false) (h : v.AllFinite) :
    (Literal.ofValue ⟨scalarBase v, .scalar⟩ v).Agrees ⟨scalarBase v, .scalar⟩ v := by
  have hmax := Base.max_self (scalarBase v)
  have hlit : Literal.ofValue ⟨scalarBase v, .scalar⟩ v = .atom (Atom.ofValue (scalarBase v) v) := by
    cases v <;> rfl
  rw [hlit]
  exact ⟨by rw [Literal.HasType, base_ofValue_of_max hmax], fits_ofValue h hmax⟩

theorem agrees_vector {items : List Value} (h : (Value.seq items).AllFinite) :
    (Literal.ofValue ⟨vectorBase items, .vector⟩ (.seq items)).Agrees
      ⟨vectorBase items, .vector⟩ (.seq items) := by
  refine ⟨⟨rfl, ?_⟩, ?_⟩
  · intro a ha
    obtain ⟨item, hitem, rfl⟩ := List.mem_map.1 ha
    exact base_ofValue_of_max (max_vectorBase_of_mem hitem)
  · rw [List.forall₂_map_left_iff, List.forall₂_same]
    exact fun item hitem =>
      fits_ofValue (Value.allFinite_seq.1 h item hitem) (max_vectorBase_of_mem hitem)

theorem agrees_table (rows : List Value) :
    (Literal.ofValue ⟨.string, .table⟩ (.seq rows)).Agrees ⟨.string, .table⟩ (.seq rows) := by
  refine ⟨?_, ?_⟩
  · rw [List.forall₂_map_left_iff, List.forall₂_same]
    intro row _
    rw [rowAtoms_eq_map, List.forall₂_map_left_iff, List.forall₂_same]
    exact fun cell _ => isTextOf_ofCell_iff cell
  · simp only [Literal.ofValue, Literal.HasType, true_and, List.forall_mem_map, rowAtoms_eq_map,
      base_ofCell_eq_string_iff]

/-- The loose rule gives a type of the shape of the value. -/
theorem exists_shapedLiteral_looseTy (v : Value) :
    ∃ text, shapedLiteral (looseTy v) v = .ok text := by
  rcases looseTy_cases v with ⟨hsingle, hty⟩ | ⟨items, rfl, hty⟩ | ⟨rows, rfl, hty⟩
  · rw [hty]
    cases v with
    | seq items => cases hsingle
    | _ => exact ⟨_, rfl⟩
  · exact ⟨_, by rw [hty]; rfl⟩
  · exact ⟨_, by rw [hty]; rfl⟩

theorem agrees_looseTy {v : Value} (h : v.AllFinite) :
    (Literal.ofValue (looseTy v) v).Agrees (looseTy v) v := by
  rcases looseTy_cases v with ⟨hsingle, hty⟩ | ⟨items, rfl, hty⟩ | ⟨rows, rfl, hty⟩
  · rw [hty]
    exact agrees_scalar hsingle h
  · rw [hty]
    exact agrees_vector h
  · rw [hty]
    exact agrees_table rows

/-- Every value with finite floats has a literal under its loose type, and the literal
reads back as one that agrees with the type. -/
theorem literal_looseTy_agrees {v : Value} (h : v.AllFinite) :
    ∃ text lit, literal (looseTy v) v = .ok text ∧ readLiteral? text.toList = some lit ∧
      lit.Agrees (looseTy v) v := by
  have hnone := (firstNonFinite?_eq_none_iff v).2 h
  obtain ⟨text, htext⟩ := exists_shapedLiteral_looseTy v
  have htext := literal_eq_ok_iff.2 ⟨hnone, htext⟩
  exact ⟨text, _, htext, readLiteral?_literal htext, agrees_looseTy h⟩

/-- A table with a number in a row, a bare row and a negative zero. -/
def mixedTable : Value :=
  .seq [.seq [.text "a\"", .int (-1)], .symbol "hline", .float (.zero true)]

theorem literal_looseTy_agrees_mixedTable :
    mixedTable.AllFinite ∧ ∃ text lit, literal (looseTy mixedTable) mixedTable = .ok text ∧
      readLiteral? text.toList = some lit ∧ lit.Agrees (looseTy mixedTable) mixedTable := by
  have h : mixedTable.AllFinite := by
    unfold Value.AllFinite
    decide
  exact ⟨h, literal_looseTy_agrees h⟩

end GoCell.Go
