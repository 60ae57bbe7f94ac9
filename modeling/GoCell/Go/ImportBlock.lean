import GoCell.Go.StringLiteral
import GoCell.Text.Blank

/-!
The import declaration. An entry is a path, or an alias and a path; a path that
is already a literal stays as it is.
-/

namespace GoCell.Go

/-- Whether a text starts and ends with the same quotation mark. -/
def isQuoted (l : List Char) : Bool :=
  let enclosed (q : Char) : Bool := l.head? == some q && l.getLast? == some q
  2 ≤ l.length && (enclosed '"' || enclosed '\x60')

/-- A path as a literal. -/
def pathLiteral (path : List Char) : List Char :=
  if isQuoted path then path else quoteChars path

/-- One import, from an entry without blanks at its ends. What stands before the
first blank is the alias. -/
def importSpec (entry : List Char) : List Char :=
  if isQuoted entry then entry
  else match entry.dropWhile (!Text.isBlank ·) with
    | [] => quoteChars entry
    | _ :: path =>
      entry.takeWhile (!Text.isBlank ·) ++ ' ' :: pathLiteral (Text.trim path)

/-- The lines of the imports, blank entries left out. -/
def importLines (imports : List String) : List (List Char) :=
  ((imports.map fun entry => Text.trim entry.toList).filter (!·.isEmpty)).map importSpec

/-- The declaration, if there is anything to import. -/
def importBlock? (imports : List String) : Option String :=
  match importLines imports with
  | [] => none
  | specs =>
    some ("import (\n" ++ String.ofList (specs.flatMap fun s => '\t' :: (s ++ ['\n'])) ++ ")\n")

end GoCell.Go
