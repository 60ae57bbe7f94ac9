import GoCell.Number.Binary64

/-!
The values that a host hands over. Integers, floats and texts have a Go
counterpart; booleans, symbols and `nil` have none and travel as text.
-/

namespace GoCell

inductive Value
  | int (n : Int64)
  | float (x : Binary64)
  | text (s : String)
  | seq (items : List Value)
  | bool (b : Bool)
  | symbol (name : String)
  | nil
  deriving Inhabited

namespace Value

def isSeq : Value → Bool
  | .seq _ => true
  | _ => false

/-- A table is a sequence that starts with a sequence. -/
def isTable : Value → Bool
  | .seq (.seq _ :: _) => true
  | _ => false

theorem isSeq_of_isTable {v : Value} (h : v.isTable) : v.isSeq := by
  cases v <;> simp_all [isTable, isSeq]

end Value

end GoCell
