import GoCell.Go.StringLiteral
import GoCell.Go.Typing
import GoCell.Number.Fixed

/-!
Values as Go literals. An element is written by the rule of the element type; a
cell of a table by the rule of its own type, so numbers in tables stay bare.
-/

namespace GoCell.Go

/-- A float literal has six decimal places. -/
def floatPlaces : Nat := 6

/-- The literal of a double; only finite ones are written. -/
def floatLiteral : Binary64 → String
  | .finite negative index => String.ofList (Binary64.writeFixed floatPlaces negative index)
  | x => String.ofList (Value.displayFloat x)

/-- A single value under the rule of an element type. What the rule does not cover
is written as the text of its display. -/
def scalarLiteral (base : Base) (v : Value) : String :=
  match base, v with
  | .int, .int n => String.ofList (writeInt n.toInt)
  | .float32, .int n => floatLiteral (.ofInt n.toInt)
  | .float32, .float x => floatLiteral x
  | .string, .text s => quote s
  | _, v => quote v.display

def cellLiteral (cell : Value) : String := scalarLiteral (scalarBase cell) cell

/-- A composite literal with its elements. -/
def composite (type : String) (items : List String) : String :=
  type ++ "\x7b" ++ ",".intercalate items ++ "\x7d"

/-- A row of a table. A row that is no sequence has itself as its only cell. -/
def rowLiteral : Value → String
  | .seq cells => composite "[]string" (cells.map cellLiteral)
  | cell => composite "[]string" [cellLiteral cell]

def tableLiteral (rows : List Value) : String :=
  "[][]string\x7b " ++ ", ".intercalate (rows.map rowLiteral) ++ " \x7d"

mutual

/-- The first float that is not finite, at any depth. -/
def firstNonFinite? : Value → Option Value
  | .float x => if x.isFinite then none else some (.float x)
  | .seq items => firstNonFiniteIn? items
  | _ => none

def firstNonFiniteIn? : List Value → Option Value
  | [] => none
  | v :: vs =>
    match firstNonFinite? v with
    | some bad => some bad
    | none => firstNonFiniteIn? vs

end

theorem firstNonFiniteIn?_eq_findSome? (vs : List Value) :
    firstNonFiniteIn? vs = vs.findSome? firstNonFinite? := by
  induction vs with
  | nil => rfl
  | cons v vs ih =>
    simp only [firstNonFiniteIn?, List.findSome?_cons, ih]
    cases firstNonFinite? v <;> rfl

/-- The literal of a value under a type, where value and type have one shape. -/
def shapedLiteral (ty : Ty) (v : Value) : Except GenerationError String :=
  match ty.shape, v with
  | .scalar, .seq _ => .error (.unsupported v .sequenceAsScalar)
  | .scalar, v => .ok (scalarLiteral ty.base v)
  | .vector, .seq items =>
    .ok (composite ("[]" ++ ty.base.name) (items.map (scalarLiteral ty.base)))
  | .table, .seq rows => .ok (tableLiteral rows)
  | _, v => .error (.unsupported v .scalarAsSequence)

/-- The literal of a value under a type. -/
def literal (ty : Ty) (v : Value) : Except GenerationError String :=
  match firstNonFinite? v with
  | some bad => .error (.unsupported bad .notFinite)
  | none => shapedLiteral ty v

end GoCell.Go
