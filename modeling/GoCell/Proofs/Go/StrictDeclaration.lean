import GoCell.Proofs.Go.Declaration
import GoCell.Proofs.Go.LiteralText

/-!
Strict declarations keep their values. The strict rule accepts a value only if
its elements have one type, and then the literal that stands in the declaration
has the declared type throughout and denotes the value: integers and texts as
they are, floats to six decimal places.
-/

namespace GoCell.Go

/-! ### Types and values of literals -/

/-- The element type of an atom by its form. -/
def Atom.base : Atom → Base
  | .integer _ _ => .int
  | .decimal _ _ _ => .float32
  | .text _ => .string

/-- Whether a literal, with every atom in it, has a type. -/
def Literal.HasType : Literal → Ty → Prop
  | .atom a, ty => ty = ⟨a.base, .scalar⟩
  | .vector base items, ty => ty = ⟨base, .vector⟩ ∧ ∀ a ∈ items, a.base = base
  | .table rows, ty => ty = ⟨.string, .table⟩ ∧ ∀ cells ∈ rows, ∀ a ∈ cells, a.base = .string

/-- Whether an atom gives a single value. A decimal gives the double to whose exact
value it is the nearest multiple of `10 ^ -6`. -/
def Atom.Denotes : Atom → Value → Prop
  | .integer negative n, .int k => signed negative n = k.toInt
  | .decimal negative digits places, .float x =>
    places = 6 ∧ ∃ q, x.toRat? = some q ∧ NearestEven (q * 10 ^ 6) (signed negative digits)
  | .text bytes, .text s => textOfBytes? bytes = some s
  | _, _ => False

/-- Whether a literal gives a value, element by element. -/
def Literal.Denotes : Literal → Value → Prop
  | .atom a, v => a.Denotes v
  | .vector _ items, .seq vs => List.Forall₂ Atom.Denotes items vs
  | .table rows, .seq vs =>
    List.Forall₂ (fun cells row => ∃ ws, row = .seq ws ∧ List.Forall₂ Atom.Denotes cells ws) rows vs
  | _, _ => False

/-! ### What the strict rule guarantees -/

theorem obstacle?_eq_none_of_strictTy {v : Value} {ty : Ty} (h : strictTy v = .ok ty) :
    obstacle? v = none ∧ ty = looseTy v := by
  unfold strictTy at h
  split at h
  · cases h
  · next hnone =>
      cases h
      exact ⟨hnone, rfl⟩

theorem exists_texts_of_rowObstacle? {row : Value} (h : rowObstacle? row = none) :
    ∃ cells, row = .seq cells ∧ ∀ cell ∈ cells, isText cell := by
  cases row with
  | seq cells =>
      refine ⟨cells, rfl, ?_⟩
      simpa [rowObstacle?] using h
  | _ => cases h

theorem uniform_of_vectorObstacle? {items : List Value} (h : vectorObstacle? items = none) :
    ∀ item ∈ items, isTyped item ∧ scalarBase item = vectorBase items := by
  unfold vectorObstacle? at h
  split at h
  · cases h
  split at h
  · cases h
  next htyped =>
    split at h
    · cases h
    next hbase =>
      intro item hitem
      rw [List.find?_eq_none] at htyped
      rw [Bool.not_eq_true, List.any_eq_false] at hbase
      exact ⟨by simpa using htyped item hitem, by simpa using hbase item hitem⟩

/-- The three ways to be accepted by the strict rule. -/
theorem strictTy_cases {v : Value} {ty : Ty} (h : strictTy v = .ok ty) :
    (isTyped v ∧ ty = ⟨scalarBase v, .scalar⟩) ∨
    (∃ items, v = .seq items ∧ ty = ⟨vectorBase items, .vector⟩ ∧
      ∀ item ∈ items, isTyped item ∧ scalarBase item = vectorBase items) ∨
    (∃ rows, v = .seq rows ∧ ty = ⟨.string, .table⟩ ∧
      ∀ row ∈ rows, ∃ cells, row = .seq cells ∧ ∀ cell ∈ cells, isText cell) := by
  obtain ⟨hnone, rfl⟩ := obstacle?_eq_none_of_strictTy h
  cases v with
  | seq items =>
      right
      rw [obstacle?] at hnone
      rw [looseTy]
      split at hnone
      · next htable =>
          rw [List.findSome?_eq_none_iff] at hnone
          rw [if_pos htable]
          exact .inr ⟨items, rfl, rfl, fun row hrow =>
            exists_texts_of_rowObstacle? (hnone row hrow)⟩
      · next hvector =>
          rw [if_neg hvector]
          exact .inl ⟨items, rfl, rfl, uniform_of_vectorObstacle? hnone⟩
  | int n => exact .inl ⟨rfl, rfl⟩
  | float x => exact .inl ⟨rfl, rfl⟩
  | text s => exact .inl ⟨rfl, rfl⟩
  | bool b => cases hnone
  | symbol name => cases hnone
  | nil => cases hnone

/-! ### Atoms of accepted values -/

theorem isTyped_of_isText {v : Value} (h : isText v) : isTyped v := by
  cases v <;> first | rfl | cases h

theorem scalarBase_of_isText {v : Value} (h : isText v) : scalarBase v = .string := by
  cases v <;> first | rfl | cases h

theorem base_ofValue {v : Value} (htyped : isTyped v) :
    (Atom.ofValue (scalarBase v) v).base = scalarBase v := by
  cases v with
  | float x => cases x <;> rfl
  | int n => rfl
  | text s => rfl
  | _ => cases htyped

theorem denotes_ofValue {v : Value} (htyped : isTyped v) (hfinite : firstNonFinite? v = none) :
    (Atom.ofValue (scalarBase v) v).Denotes v := by
  cases v with
  | int n => exact signed_natAbs n.toInt
  | float x =>
      cases x with
      | finite negative index =>
          exact ⟨rfl, _, rfl, Binary64.nearestEven_toPlaces 6 negative index⟩
      | infinite negative => cases hfinite
      | nan => cases hfinite
  | text s => exact textOfBytes?_utf8 s
  | _ => cases htyped

/-- Values that all have the type of the vector give atoms that denote them. -/
theorem forall₂_denotes {base : Base} {items : List Value}
    (hfinite : firstNonFinite? (.seq items) = none)
    (h : ∀ item ∈ items, isTyped item ∧ scalarBase item = base) :
    List.Forall₂ Atom.Denotes (items.map (Atom.ofValue base)) items := by
  rw [List.forall₂_map_left_iff, List.forall₂_same]
  intro item hitem
  obtain ⟨htyped, rfl⟩ := h item hitem
  exact denotes_ofValue htyped (firstNonFinite?_eq_none_of_mem hfinite hitem)

theorem base_eq_of_mem_map {base : Base} {items : List Value}
    (h : ∀ item ∈ items, isTyped item ∧ scalarBase item = base) :
    ∀ a ∈ items.map (Atom.ofValue base), a.base = base := by
  intro a ha
  obtain ⟨item, hitem, rfl⟩ := List.mem_map.1 ha
  obtain ⟨htyped, rfl⟩ := h item hitem
  exact base_ofValue htyped

theorem ofCell_eq_of_isText {cells : List Value} (h : ∀ cell ∈ cells, isText cell) :
    cells.map Atom.ofCell = cells.map (Atom.ofValue .string) := by
  refine List.map_congr_left fun cell hcell => ?_
  rw [Atom.ofCell, scalarBase_of_isText (h cell hcell)]

/-! ### Literals of accepted values -/

theorem hasType_ofValue {v : Value} {ty : Ty} (h : strictTy v = .ok ty) :
    (Literal.ofValue ty v).HasType ty := by
  rcases strictTy_cases h with ⟨htyped, rfl⟩ | ⟨items, rfl, rfl, hitems⟩ | ⟨rows, rfl, rfl, hrows⟩
  · have hlit : Literal.ofValue ⟨scalarBase v, .scalar⟩ v =
        .atom (Atom.ofValue (scalarBase v) v) := by
      cases v <;> rfl
    rw [hlit, Literal.HasType, base_ofValue htyped]
  · exact ⟨rfl, base_eq_of_mem_map hitems⟩
  · refine ⟨rfl, ?_⟩
    intro cells hcells
    obtain ⟨row, hrow, rfl⟩ := List.mem_map.1 hcells
    obtain ⟨ws, rfl, htexts⟩ := hrows row hrow
    rw [rowAtoms, ofCell_eq_of_isText htexts]
    exact base_eq_of_mem_map fun cell hcell =>
      ⟨isTyped_of_isText (htexts cell hcell), scalarBase_of_isText (htexts cell hcell)⟩

theorem literal_denotes_ofValue {v : Value} {ty : Ty} (h : strictTy v = .ok ty)
    (hfinite : firstNonFinite? v = none) : (Literal.ofValue ty v).Denotes v := by
  rcases strictTy_cases h with ⟨htyped, rfl⟩ | ⟨items, rfl, rfl, hitems⟩ | ⟨rows, rfl, rfl, hrows⟩
  · have hatom := denotes_ofValue htyped hfinite
    cases v <;> exact hatom
  · exact forall₂_denotes hfinite hitems
  · change List.Forall₂ _ (rows.map rowAtoms) rows
    rw [List.forall₂_map_left_iff, List.forall₂_same]
    intro row hrow
    obtain ⟨ws, rfl, htexts⟩ := hrows row hrow
    refine ⟨ws, rfl, ?_⟩
    rw [rowAtoms, ofCell_eq_of_isText htexts]
    exact forall₂_denotes (firstNonFinite?_eq_none_of_mem hfinite hrow) fun cell hcell =>
      ⟨isTyped_of_isText (htexts cell hcell), scalarBase_of_isText (htexts cell hcell)⟩

/-! ### Declarations -/

/-- A strict declaration states the type of its value and a literal of that type,
which reads back as the value. -/
theorem declare_strict_reads_back {b : Binding} {stmt : String} (h : declare true b = .ok stmt) :
    ∃ ty text lit, strictTy b.value = .ok ty ∧
      stmt = "var " ++ b.name ++ " " ++ ty.text ++ " = " ++ text ∧
      readLiteral? text.toList = some lit ∧ lit.HasType ty ∧ lit.Denotes b.value := by
  obtain ⟨ty, hty, hdeclare⟩ := declare_eq_ok_iff.1 h
  obtain ⟨-, text, htext, hstmt⟩ := declareAs_eq_ok_iff.1 hdeclare
  have hty : strictTy b.value = .ok ty := by
    simpa using hty
  exact ⟨ty, text, Literal.ofValue ty b.value, hty, hstmt, readLiteral?_literal htext,
    hasType_ofValue hty, literal_denotes_ofValue hty (literal_eq_ok_iff.1 htext).1⟩

/-- A row of cells that hold what separates cells, and an empty row. -/
def markedTable : Binding :=
  ⟨"t", .seq [.seq [.text "a,\x7d", .text "\"\n"], .seq []]⟩

/-- The declaration of `markedTable`. -/
def markedTableText : String :=
  "var t [][]string = [][]string\x7b []string\x7b\"a,\x7d\",\"\\\"\\n\"\x7d, []string\x7b\x7d \x7d"

theorem declare_strict_markedTable_reads_back :
    declare true markedTable = .ok markedTableText ∧
    ∃ ty text lit, strictTy markedTable.value = .ok ty ∧
      markedTableText = "var " ++ markedTable.name ++ " " ++ ty.text ++ " = " ++ text ∧
      readLiteral? text.toList = some lit ∧ lit.HasType ty ∧ lit.Denotes markedTable.value := by
  have h : declare true markedTable = .ok markedTableText :=
    eq_ok_of_toOption (by decide)
  exact ⟨h, declare_strict_reads_back h⟩

end GoCell.Go
