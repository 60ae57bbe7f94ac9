/-!
Finding a fixed text in a text.
-/

namespace GoCell.Text

/-- What follows the first occurrence of `pattern`. -/
def after? (pattern : List Char) : List Char → Option (List Char)
  | [] => pattern.isPrefixOf? []
  | c :: r =>
    match pattern.isPrefixOf? (c :: r) with
    | some rest => some rest
    | none => after? pattern r

/-- What follows the last occurrence of `pattern`. -/
def afterLast? (pattern : List Char) : List Char → Option (List Char)
  | [] => pattern.isPrefixOf? []
  | c :: r =>
    match afterLast? pattern r with
    | some rest => some rest
    | none => pattern.isPrefixOf? (c :: r)

/-- How often `pattern` occurs in a text of at most `bound` characters, counted
from the left without overlap. -/
def occurrencesWithin (pattern : List Char) : Nat → List Char → Nat
  | 0, _ => 0
  | bound + 1, l =>
    match after? pattern l with
    | some rest => occurrencesWithin pattern bound rest + 1
    | none => 0

/-- How often `pattern` occurs in a text, counted from the left without overlap. -/
def occurrences (pattern l : List Char) : Nat :=
  occurrencesWithin pattern l.length l

end GoCell.Text
