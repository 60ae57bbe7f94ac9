import GoCell.Error

/-!
The Go type of a value. The loose rule always answers: elements of different
kinds are brought to the widest of them, and what has no Go type becomes text.
The strict rule answers only where there is a single choice.
-/

namespace GoCell.Go

/-- Element types, from the narrowest to the widest. -/
inductive Base
  | int
  | float32
  | string
  deriving DecidableEq

inductive Shape
  | scalar
  | vector
  | table
  deriving DecidableEq

structure Ty where
  base : Base
  shape : Shape
  deriving DecidableEq

def Base.name : Base → String
  | .int => "int"
  | .float32 => "float32"
  | .string => "string"

/-- What stands before the element type. -/
def Shape.brackets : Shape → String
  | .scalar => ""
  | .vector => "[]"
  | .table => "[][]"

def Ty.text (ty : Ty) : String := ty.shape.brackets ++ ty.base.name

/-- The wider of two element types. -/
def Base.max : Base → Base → Base
  | .string, _ | _, .string => .string
  | .float32, _ | _, .float32 => .float32
  | .int, .int => .int

/-- The element type of a single value. -/
def scalarBase : Value → Base
  | .int _ => .int
  | .float _ => .float32
  | _ => .string

/-- The widest element type; `int` for no elements. -/
def vectorBase (items : List Value) : Base :=
  (items.map scalarBase).foldr .max .int

/-- The loose rule. -/
def looseTy (v : Value) : Ty :=
  match v with
  | .seq items => if v.isTable then ⟨.string, .table⟩ else ⟨vectorBase items, .vector⟩
  | v => ⟨scalarBase v, .scalar⟩

/-- Whether a value has a Go type of its own. -/
def isTyped : Value → Bool
  | .int _ | .float _ | .text _ => true
  | _ => false

def isText : Value → Bool
  | .text _ => true
  | _ => false

/-- What keeps a row of a table from being one of texts. -/
def rowObstacle? : Value → Option Obstacle
  | .seq cells => (cells.find? (!isText ·)).map .cellNotText
  | _ => some .rowNotSequence

/-- What keeps a vector from having a single element type. -/
def vectorObstacle? (items : List Value) : Option Obstacle :=
  if items.any Value.isSeq then some .mixedNesting
  else match items.find? (!isTyped ·) with
    | some item => some (.untypedElement item)
    | none =>
      if items.any (scalarBase · != vectorBase items) then some .mixedElements else none

/-- What keeps a value from having a single Go type. -/
def obstacle? (v : Value) : Option Obstacle :=
  match v with
  | .seq items => if v.isTable then items.findSome? rowObstacle? else vectorObstacle? items
  | v => if isTyped v then none else some .noGoType

/-- The strict rule. -/
def strictTy (v : Value) : Except GenerationError Ty :=
  match obstacle? v with
  | some obstacle => .error (.unsupported v obstacle)
  | none => .ok (looseTy v)

end GoCell.Go
