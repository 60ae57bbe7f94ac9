import GoCell.Cell.Basic
import GoCell.Go.Identifier
import GoCell.Go.Literal

/-!
Variable declarations for bindings.
-/

namespace GoCell.Go

/-- Declares a binding under a given type. -/
def declareAs (ty : Ty) (b : Binding) : Except GenerationError String := do
  checkName .binding b.name
  let lit ← literal ty b.value
  return "var " ++ b.name ++ " " ++ ty.text ++ " = " ++ lit

/-- Declares a binding under the type of its value. -/
def declare (strict : Bool) (b : Binding) : Except GenerationError String := do
  if strict then declareAs (← strictTy b.value) b
  else declareAs (looseTy b.value) b

end GoCell.Go
