import GoCell.Number.Digits
import GoCell.Program.Basic
import GoCell.Text.Line
import GoCell.Text.Search

/-!
A one-line summary of a program, read off its text: the package clause, and how
many variables and tables it declares.
-/

namespace GoCell

/-- A number of things. -/
def counted (n : Nat) (noun : String) : String :=
  String.ofList (writeNat n) ++ " " ++ noun ++ (if n = 1 then "" else "s")

namespace Program

/-- The last line of the package section, after the comments on it. -/
def clauseText (p : Program) : String :=
  let line := Text.trim ((Text.lines p.package.toList).getLast?.getD [])
  String.ofList (match Text.afterLast? ['*', '/'] line with
    | some rest => Text.trim rest
    | none => line)

def summary (p : Program) : String :=
  let declared := (Text.lines (p.declarations.getD "").toList).length
  let tables := Text.occurrences "_helper(row int".toList (p.accessors.getD "").toList
  p.clauseText ++ ", " ++ counted declared "var" ++
    (if tables = 0 then "" else ", " ++ counted tables "table")

end Program

end GoCell
