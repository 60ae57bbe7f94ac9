import GoCell.Cell.Basic
import GoCell.Go.Identifier
import GoCell.Go.Literal

/-!
Go code that reads a table by row and column name: per table a list of its
column names and a function, and one function that looks a name up in a list.
-/

namespace GoCell.Table

/-- The function that finds a column. -/
def lookup : String :=
  "func get_column_num(header []string, column string) int \x7b\n" ++
  "\tfor i, name := range header \x7b\n" ++
  "\t\tif name == column \x7b\n" ++
  "\t\t\treturn i\n" ++
  "\t\t\x7d\n" ++
  "\t\x7d\n" ++
  "\treturn -1\n" ++
  "\x7d\n"

/-- The declaration of the column names of a table. -/
def header (c : Columns) : String :=
  "var " ++ c.table ++ "_header = " ++ Go.composite "[]string" (c.names.map Go.quote) ++ "\n"

/-- The function that reads a cell of a table. -/
def accessor (c : Columns) : String :=
  "func " ++ c.table ++ "_helper(row int, col string) string \x7b\n" ++
  "\treturn " ++ c.table ++ "[row][get_column_num(" ++ c.table ++ "_header, col)]\n" ++
  "\x7d\n"

/-- Both declarations for a table with a valid name. -/
def accessorPair (c : Columns) : Except GenerationError (String × String) := do
  Go.checkName .table c.table
  return (header c, accessor c)

/-- All declarations for a list of tables, if there are any. -/
def accessors? (cs : List Columns) : Except GenerationError (Option String) := do
  if cs.isEmpty then return none
  let pairs ← cs.mapM accessorPair
  return some (lookup ++ String.join (pairs.map fun (header, accessor) => header ++ accessor))

end GoCell.Table
