import GoCell.Value.Display

/-!
Why a cell cannot be made into a program.
-/

namespace GoCell

/-- What a name is for. -/
inductive NameRole
  | binding
  | table
  | package
  deriving DecidableEq

def NameRole.text : NameRole → String
  | .binding => "variable"
  | .table => "table"
  | .package => "package"

/-- What stands in the way of writing a value in Go. -/
inductive Obstacle
  | noGoType
  | untypedElement (item : Value)
  | mixedElements
  | mixedNesting
  | rowNotSequence
  | cellNotText (cell : Value)
  | notFinite
  | sequenceAsScalar
  | scalarAsSequence

def Obstacle.text : Obstacle → String
  | .noGoType => "no Go type for this host value"
  | .untypedElement item => "element `" ++ item.display ++ "` has no Go type"
  | .mixedElements => "vector mixes element types"
  | .mixedNesting => "vector mixes sequences and scalars"
  | .rowNotSequence => "table row is not a sequence"
  | .cellNotText cell => "table cell `" ++ cell.display ++ "` is not a string"
  | .notFinite => "Go has no literal for a non-finite float"
  | .sequenceAsScalar => "sequence formatted as a scalar"
  | .scalarAsSequence => "scalar formatted as a sequence"

inductive GenerationError
  | unsupported (value : Value) (obstacle : Obstacle)
  | sessionRequested
  | invalidName (role : NameRole) (name : String)

def GenerationError.message : GenerationError → String
  | .unsupported value obstacle =>
    "unsupported type for " ++ value.display ++ ": " ++ obstacle.text
  | .sessionRequested => "sessions are not supported for Go"
  | .invalidName role name =>
    "invalid " ++ role.text ++ " name `" ++ name ++ "`: not a Go identifier"

end GoCell
