import GoCell.Go.Declaration
import GoCell.Proofs.Outcome

/-!
What a declaration is, where there is one: its name, its type and the literal of
its value under that type.
-/

namespace GoCell.Go

theorem checkName_eq_ok_iff {role : NameRole} {name : String} :
    checkName role name = .ok () ↔ isIdentifier name := by
  unfold checkName
  split <;> simp_all

/-- What follows the look at a name runs where the name is an identifier. -/
theorem checkName_bind {α : Type} (role : NameRole) (name : String)
    (f : Unit → Except GenerationError α) :
    (checkName role name >>= f) =
      if isIdentifier name then f () else .error (.invalidName role name) := by
  unfold checkName
  split <;> rfl

theorem declareAs_eq_ok_iff {ty : Ty} {b : Binding} {stmt : String} :
    declareAs ty b = .ok stmt ↔ isIdentifier b.name ∧
      ∃ text, literal ty b.value = .ok text ∧
        stmt = "var " ++ b.name ++ " " ++ ty.text ++ " = " ++ text := by
  rw [declareAs, bind_eq_ok_iff]
  constructor
  · rintro ⟨⟨⟩, hname, hrest⟩
    obtain ⟨text, htext, hstmt⟩ := bind_eq_ok_iff.1 hrest
    cases hstmt
    exact ⟨checkName_eq_ok_iff.1 hname, text, htext, rfl⟩
  · rintro ⟨hname, text, htext, rfl⟩
    exact ⟨(), checkName_eq_ok_iff.2 hname, bind_eq_ok_iff.2 ⟨text, htext, rfl⟩⟩

/-- The name of a binding is looked at before its value. -/
theorem declareAs_eq_error_iff {ty : Ty} {b : Binding} {e : GenerationError} :
    declareAs ty b = .error e ↔
      (isIdentifier b.name = false ∧ .invalidName .binding b.name = e) ∨
        (isIdentifier b.name = true ∧ literal ty b.value = .error e) := by
  rw [declareAs, checkName_bind]
  cases isIdentifier b.name with
  | false => simp
  | true => simp [bind_eq_error_iff, pure, Except.pure]

/-- A declaration has the strict type of its value, or else the loose one. -/
theorem declare_eq_ok_iff {strict : Bool} {b : Binding} {stmt : String} :
    declare strict b = .ok stmt ↔
      ∃ ty, (if strict then strictTy b.value else .ok (looseTy b.value)) = .ok ty ∧
        declareAs ty b = .ok stmt := by
  cases strict with
  | true => simp [declare, bind_eq_ok_iff]
  | false => simp [declare]

end GoCell.Go
