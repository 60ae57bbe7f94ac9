import GoCell.Value.Basic

/-!
A cell: a piece of Go that a host, such as a notebook or an editor, wants made
into a program, with the values that the piece refers to by name.
-/

namespace GoCell

/-- A value under the name that the program knows it by. -/
structure Binding where
  name : String
  value : Value

/-- The column names of the table that is bound to a name. -/
structure Columns where
  table : String
  names : List String
  deriving DecidableEq

/-- How the output of a program goes back to the host: as it is, as one value, or
as rows of cells. -/
inductive ResultShape
  | raw
  | scalar
  | table
  deriving DecidableEq

/-- What the host hands over. With `headers`, the first row of a table holds its
column names; with `entryPoint`, a body that defines no `main` becomes one. -/
structure Cell where
  body : String := ""
  package : Option String := none
  imports : List String := []
  bindings : List Binding := []
  columns : List Columns := []
  headers : Bool := false
  entryPoint : Bool := true
  session : Option String := none
  flags : List String := []
  arguments : List String := []
  results : ResultShape := .raw

/-- The choices that are the same for all cells of a run. -/
structure Settings where
  package : String := "main"
  strict : Bool := false

/-- Whether a cell asks for a session; the name `none` asks for none. -/
def Cell.wantsSession (cell : Cell) : Bool :=
  match cell.session with
  | some name => name ≠ "" && name ≠ "none"
  | none => false

end GoCell
