import GoCell.Number.Layout
import GoCell.Value.Basic

/-!
The display text of a value: what a reader of a notebook would expect to see.
Texts and symbols stand as they are, so display is not injective.
-/

namespace GoCell.Value

/-- Positional from `0.0001` to below `10 ^ 16`; an exponent has a sign only if it
is negative. -/
def floatLayout : FloatLayout := ⟨-3, 16, false, .up⟩

def displayFloat : Binary64 → List Char
  | .finite negative index => floatLayout.write negative index
  | .infinite negative => if negative then ['-', 'i', 'n', 'f'] else ['i', 'n', 'f']
  | .nan => ['N', 'a', 'N']

mutual

/-- Sequences are bracketed, with a space between elements. -/
def display : Value → String
  | .int n => String.ofList (writeInt n.toInt)
  | .float x => String.ofList (displayFloat x)
  | .text s => s
  | .seq items => "[" ++ " ".intercalate (displayEach items) ++ "]"
  | .bool true => "true"
  | .bool false => "false"
  | .symbol name => name
  | .nil => "nil"

def displayEach : List Value → List String
  | [] => []
  | v :: vs => display v :: displayEach vs

end

theorem displayEach_eq_map (vs : List Value) : displayEach vs = vs.map display := by
  induction vs with
  | nil => rfl
  | cons v vs ih => simp [displayEach, ih]

end GoCell.Value
