import GoCell.Cell.Basic
import GoCell.Value.Display

/-!
Taking the column names of tables from their first rows. A first row is a header
if none of its cells is a sequence; a table whose columns are already known keeps
its first row.
-/

namespace GoCell.Table

/-- The column names in the first row of a table, and the table without it. -/
def splitHeader? : Value → Option (List String × Value)
  | .seq (.seq cells :: rows) =>
    if cells.any Value.isSeq then none else some (cells.map Value.display, .seq rows)
  | _ => none

/-- A binding without its header row, and the columns that the row names. -/
def takeHeader (known : List Columns) (b : Binding) : Binding × Option Columns :=
  if known.any (·.table == b.name) then (b, none)
  else match splitHeader? b.value with
    | some (names, value) => ({ b with value }, some { table := b.name, names })
    | none => (b, none)

/-- Takes the headers of all bindings. -/
def takeHeaders (known : List Columns) (bs : List Binding) : List Binding × List Columns :=
  (bs.map fun b => (takeHeader known b).1, bs.filterMap fun b => (takeHeader known b).2)

end GoCell.Table
