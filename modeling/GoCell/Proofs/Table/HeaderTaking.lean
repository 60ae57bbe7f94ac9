import GoCell.Table.Header
import Mathlib.Data.List.Forall2

/-!
What taking headers does to a list of bindings. A header is a first row without
sequences in it, and it is taken where the binding has no known columns. Nothing else
changes, every row that is taken is recorded under the name of its binding, and with the
records known a second round takes nothing.
-/

namespace GoCell.Table

/-- Whether a value starts with a row that can be a header. -/
def HasHeader : Value → Prop
  | .seq (.seq cells :: _) => ∀ cell ∈ cells, cell.isSeq = false
  | _ => False

instance : DecidablePred HasHeader
  | .seq (.seq cells :: _) => inferInstanceAs (Decidable (∀ cell ∈ cells, cell.isSeq = false))
  | .seq (.int _ :: _) | .seq (.float _ :: _) | .seq (.text _ :: _) | .seq (.bool _ :: _)
  | .seq (.symbol _ :: _) | .seq (.nil :: _) | .seq [] => isFalse id
  | .int _ | .float _ | .text _ | .bool _ | .symbol _ | .nil => isFalse id

/-- Whether a binding has a header and no known columns. -/
def IsHeaded (known : List Columns) (b : Binding) : Prop :=
  (∀ c ∈ known, c.table ≠ b.name) ∧ HasHeader b.value

instance (known : List Columns) : DecidablePred (IsHeaded known) :=
  fun _ => inferInstanceAs (Decidable (_ ∧ _))

/-- Whether a binding is what another one leaves when its first row is taken. -/
def LosesFirstRow (b b' : Binding) : Prop :=
  b'.name = b.name ∧ ∃ row rows, b.value = .seq (row :: rows) ∧ b'.value = .seq rows

/-- Whether columns are the record of the first row of a binding. -/
def RecordsFirstRow (b : Binding) (c : Columns) : Prop :=
  c.table = b.name ∧
    ∃ cells rows, b.value = .seq (.seq cells :: rows) ∧ c.names = cells.map Value.display

/-! ### One binding -/

theorem hasHeader_iff {v : Value} :
    HasHeader v ↔
      ∃ cells rows, v = .seq (.seq cells :: rows) ∧ ∀ cell ∈ cells, cell.isSeq = false := by
  constructor
  · intro h
    unfold HasHeader at h
    split at h
    · next cells rows => exact ⟨cells, rows, rfl, h⟩
    · exact h.elim
  · rintro ⟨cells, rows, rfl, hcells⟩
    exact hcells

theorem splitHeader?_of_not_hasHeader {v : Value} (h : ¬HasHeader v) : splitHeader? v = none := by
  unfold splitHeader?
  split
  · next cells rows =>
      rw [if_pos]
      simpa [HasHeader] using h
  · rfl

theorem known_any_iff {known : List Columns} {name : String} :
    known.any (·.table == name) = false ↔ ∀ c ∈ known, c.table ≠ name := by
  simp

/-- A header is taken and recorded. -/
theorem exists_takeHeader {known : List Columns} {b : Binding} (h : IsHeaded known b) :
    ∃ b' c, takeHeader known b = (b', some c) ∧ LosesFirstRow b b' ∧ RecordsFirstRow b c := by
  obtain ⟨hknown, hheader⟩ := h
  obtain ⟨cells, rows, hvalue, hcells⟩ := hasHeader_iff.1 hheader
  have hsingle : cells.any Value.isSeq = false := by
    rw [List.any_eq_false]
    intro cell hcell
    simp [hcells cell hcell]
  refine ⟨⟨b.name, .seq rows⟩, ⟨b.name, cells.map Value.display⟩, ?_,
    ⟨rfl, _, rows, hvalue, rfl⟩, rfl, cells, rows, hvalue, rfl⟩
  simp [takeHeader, known_any_iff.2 hknown, hvalue, splitHeader?, hsingle]

/-- Every other binding stays as it is. -/
theorem takeHeader_of_not_isHeaded {known : List Columns} {b : Binding} (h : ¬IsHeaded known b) :
    takeHeader known b = (b, none) := by
  unfold takeHeader
  split
  · rfl
  · next hknown =>
      have hheader : ¬HasHeader b.value := fun hheader =>
        h ⟨known_any_iff.1 (Bool.not_eq_true _ ▸ hknown), hheader⟩
      rw [splitHeader?_of_not_hasHeader hheader]

theorem name_takeHeader (known : List Columns) (b : Binding) :
    (takeHeader known b).1.name = b.name := by
  by_cases h : IsHeaded known b
  · obtain ⟨b', c, htaken, hloses, -⟩ := exists_takeHeader h
    rw [htaken]
    exact hloses.1
  · rw [takeHeader_of_not_isHeaded h]

/-- More known columns leave fewer headers to be taken. -/
theorem IsHeaded.of_append {known more : List Columns} {b : Binding}
    (h : IsHeaded (known ++ more) b) : IsHeaded known b :=
  ⟨fun c hc => h.1 c (List.mem_append_left _ hc), h.2⟩

/-! ### All bindings -/

theorem takeHeaders_of_forall_not_isHeaded {known : List Columns} {bs : List Binding}
    (h : ∀ b ∈ bs, ¬IsHeaded known b) : takeHeaders known bs = (bs, []) := by
  have htaken : ∀ b ∈ bs, takeHeader known b = (b, none) :=
    fun b hb => takeHeader_of_not_isHeaded (h b hb)
  have hkept : (bs.map fun b => (takeHeader known b).1) = bs :=
    (List.map_congr_left fun b hb => by rw [htaken b hb]).trans (List.map_id' bs)
  have hrecorded : (bs.filterMap fun b => (takeHeader known b).2) = [] := by
    rw [List.filterMap_eq_nil_iff]
    intro b hb
    rw [htaken b hb]
  rw [takeHeaders, hkept, hrecorded]

theorem map_name_takeHeaders (known : List Columns) (bs : List Binding) :
    (takeHeaders known bs).1.map Binding.name = bs.map Binding.name := by
  simp [takeHeaders, name_takeHeader]

/-- Bindings with a header lose it and the others are left alone. -/
theorem forall₂_takeHeaders (known : List Columns) (bs : List Binding) :
    List.Forall₂ (fun b b' => if IsHeaded known b then LosesFirstRow b b' else b' = b) bs
      (takeHeaders known bs).1 := by
  rw [takeHeaders, List.forall₂_map_right_iff, List.forall₂_same]
  intro b _
  split
  · next hheaded =>
      obtain ⟨b', c, htaken, hloses, -⟩ := exists_takeHeader hheaded
      rwa [htaken]
  · next hheaded => rw [takeHeader_of_not_isHeaded hheaded]

/-- There is one record for each header, in the order of the bindings. -/
theorem forall₂_columns_takeHeaders (known : List Columns) (bs : List Binding) :
    List.Forall₂ RecordsFirstRow (bs.filter (IsHeaded known ·)) (takeHeaders known bs).2 := by
  rw [takeHeaders]
  induction bs with
  | nil => exact .nil
  | cons b bs ih =>
      rw [List.filter_cons, List.filterMap_cons]
      by_cases hheaded : IsHeaded known b
      · obtain ⟨b', c, htaken, -, hrecord⟩ := exists_takeHeader hheaded
        rw [if_pos (decide_eq_true hheaded), htaken]
        exact .cons hrecord ih
      · rw [if_neg (by simpa using hheaded), takeHeader_of_not_isHeaded hheaded]
        exact ih

/-- What is left has no header that is not recorded. -/
theorem not_isHeaded_of_mem_takeHeaders {known : List Columns} {bs : List Binding} {b' : Binding}
    (h : b' ∈ (takeHeaders known bs).1) : ¬IsHeaded (known ++ (takeHeaders known bs).2) b' := by
  obtain ⟨b, hb, rfl⟩ := List.mem_map.1 h
  intro hagain
  by_cases hheaded : IsHeaded known b
  · obtain ⟨b', c, htaken, hloses, hrecord⟩ := exists_takeHeader hheaded
    have hc : c ∈ (takeHeaders known bs).2 :=
      List.mem_filterMap.2 ⟨b, hb, by rw [htaken]⟩
    refine hagain.1 c (List.mem_append_right _ hc) ?_
    rw [htaken, hrecord.1, hloses.1]
  · rw [takeHeader_of_not_isHeaded hheaded] at hagain
    exact hheaded hagain.of_append

/-- Names and order stay; exactly the bindings with a header and no known columns lose
their first row; each first row is recorded once, in order, under the name of its binding;
and a round that knows the records changes nothing. -/
theorem takeHeaders_conserves (known : List Columns) (bs : List Binding) :
    ∃ bs' taken, takeHeaders known bs = (bs', taken) ∧
      bs'.map Binding.name = bs.map Binding.name ∧
      List.Forall₂ (fun b b' => if IsHeaded known b then LosesFirstRow b b' else b' = b) bs bs' ∧
      List.Forall₂ RecordsFirstRow (bs.filter (IsHeaded known ·)) taken ∧
      takeHeaders (known ++ taken) bs' = (bs', []) :=
  ⟨_, _, rfl, map_name_takeHeaders known bs, forall₂_takeHeaders known bs,
    forall₂_columns_takeHeaders known bs,
    takeHeaders_of_forall_not_isHeaded fun _ => not_isHeaded_of_mem_takeHeaders⟩

end GoCell.Table
