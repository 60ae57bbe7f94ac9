import GoCell.Go.Literal
import Mathlib.Data.List.Basic

/-!
The floats of a value, from left to right at any depth, and induction on a value from
the elements of its sequences.
-/

namespace GoCell

namespace Value

/-- To prove something of every value, prove it of the single ones, and of a sequence
where it holds of every element. -/
@[elab_as_elim]
theorem seqInduction {motive : Value → Prop} (single : ∀ v, v.isSeq = false → motive v)
    (seq : ∀ items, (∀ v ∈ items, motive v) → motive (.seq items)) : ∀ v, motive v
  | .seq items => seq items fun v _ => seqInduction single seq v
  | .int n => single (.int n) rfl
  | .float x => single (.float x) rfl
  | .text s => single (.text s) rfl
  | .bool b => single (.bool b) rfl
  | .symbol name => single (.symbol name) rfl
  | .nil => single .nil rfl

mutual

def floats : Value → List Binary64
  | .float x => [x]
  | .seq items => floatsEach items
  | _ => []

def floatsEach : List Value → List Binary64
  | [] => []
  | v :: vs => floats v ++ floatsEach vs

end

theorem floatsEach_eq_flatMap (vs : List Value) : floatsEach vs = vs.flatMap floats := by
  induction vs with
  | nil => rfl
  | cons v vs ih => rw [floatsEach, ih, List.flatMap_cons]

/-- No float of a value is infinite or not a number. -/
def AllFinite (v : Value) : Prop := ∀ x ∈ v.floats, x.isFinite

theorem allFinite_seq {items : List Value} :
    AllFinite (.seq items) ↔ ∀ v ∈ items, v.AllFinite := by
  simp only [AllFinite, floats, floatsEach_eq_flatMap, List.mem_flatMap]
  exact ⟨fun h v hv x hx => h x ⟨v, hv, hx⟩, fun h x ⟨v, hv, hx⟩ => h v hv x hx⟩

end Value

/-- The search for a float that cannot be written goes through the floats in their order. -/
theorem Go.firstNonFinite?_eq_find? (v : Value) :
    firstNonFinite? v = (v.floats.find? (!·.isFinite)).map .float := by
  induction v using Value.seqInduction with
  | single v hv =>
      cases v with
      | seq items => cases hv
      | float x => cases h : x.isFinite <;> simp [firstNonFinite?, Value.floats, h]
      | _ => rfl
  | seq items ih =>
      rw [firstNonFinite?, firstNonFiniteIn?_eq_findSome?, Value.floats,
        Value.floatsEach_eq_flatMap, List.find?_flatMap, List.map_findSome?,
        ← List.head?_filterMap, ← List.head?_filterMap]
      exact congrArg List.head? (List.filterMap_congr ih)

theorem Go.firstNonFinite?_eq_none_iff (v : Value) :
    firstNonFinite? v = none ↔ v.AllFinite := by
  simp [firstNonFinite?_eq_find?, Value.AllFinite]

end GoCell
