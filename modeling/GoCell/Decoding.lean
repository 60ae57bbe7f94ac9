import GoCell.Cell.Basic
import GoCell.Number.Numeral
import GoCell.Text.Line
import GoCell.Value.Json

/-!
Turning the output of a program into a value of the shape that the cell asks for.
-/

namespace GoCell

/-- An integer that fits in 64 bits. -/
def readInt64? (l : List Char) : Option Int64 :=
  match readInt? l with
  | some n => if Value.fitsInt64 n then some (Int64.ofInt n) else none
  | none => none

/-- A numeral whose nearest double is finite. -/
def readFloat? (l : List Char) : Option Binary64 :=
  match (Numeral.read? l).map Numeral.toBinary64 with
  | some (.finite negative index) => some (.finite negative index)
  | _ => none

/-- A text as an integer, else as a float, else as itself, blanks at its ends aside. -/
def readScalar (l : List Char) : Value :=
  let l := Text.trim l
  match readInt64? l with
  | some n => .int n
  | none =>
    match readFloat? l with
    | some x => .float x
    | none => .text (String.ofList l)

/-- A text as rows of cells, one row for each line that is not blank. One tab
anywhere makes tabs the separators of all lines; else blanks separate. -/
def readTable (l : List Char) : Value :=
  let cells (line : List Char) : List (List Char) :=
    if l.contains '\t' then line.splitOn '\t' else Text.words line
  .seq (((Text.lines l).filter fun line => !(Text.trim line).isEmpty).map fun line =>
    .seq ((cells line).map readScalar))

/-- The value of an output. -/
def decodeOutput (shape : ResultShape) (output : String) : Value :=
  match shape with
  | .raw => .text output
  | .scalar => readScalar output.toList
  | .table => readTable output.toList

end GoCell
