import GoCell.Json.Printer
import GoCell.Value.Basic

/-!
Values as JSON. Every document stands for a value; a symbol is an object with
the single member `symbol`, and any other object is the symbol that is named by
its own compact text.
-/

namespace GoCell.Value

/-- Whether an integer fits in 64 bits, with its sign. -/
def fitsInt64 (n : Int) : Bool := Int64.minValue.toInt ≤ n && n ≤ Int64.maxValue.toInt

theorem fitsInt64_toInt (n : Int64) : fitsInt64 n.toInt := by
  have hmin : Int64.minValue.toInt = -2 ^ 63 := rfl
  have hmax : Int64.maxValue.toInt = 2 ^ 63 - 1 := rfl
  have hlow := n.le_toInt
  have hhigh := n.toInt_lt
  simp only [fitsInt64, hmin, hmax, Bool.and_eq_true, decide_eq_true_eq]
  omega

/-- The name of the symbol that an object spells, if it is of that form. -/
def symbolName? : List (String × Json) → Option String
  | [(key, .string name)] => if key = "symbol" then some name else none
  | _ => none

mutual

def ofJson : Json → Value
  | .null => .nil
  | .bool b => .bool b
  | .integer n => if fitsInt64 n then .int (Int64.ofInt n) else .float (Binary64.ofInt n)
  | .real x => .float x
  | .string s => .text s
  | .array items => .seq (ofJsonEach items)
  | .object members => .symbol ((symbolName? members).getD (Json.object members).render)

def ofJsonEach : List Json → List Value
  | [] => []
  | j :: js => ofJson j :: ofJsonEach js

end

mutual

def toJson : Value → Json
  | .int n => .integer n.toInt
  | .float x => .real x
  | .text s => .string s
  | .seq items => .array (toJsonEach items)
  | .bool b => .bool b
  | .symbol name => .object [("symbol", .string name)]
  | .nil => .null

def toJsonEach : List Value → List Json
  | [] => []
  | v :: vs => toJson v :: toJsonEach vs

end

theorem ofJsonEach_eq_map (js : List Json) : ofJsonEach js = js.map ofJson := by
  induction js with
  | nil => rfl
  | cons j js ih => simp [ofJsonEach, ih]

theorem toJsonEach_eq_map (vs : List Value) : toJsonEach vs = vs.map toJson := by
  induction vs with
  | nil => rfl
  | cons v vs ih => simp [toJsonEach, ih]

end GoCell.Value
