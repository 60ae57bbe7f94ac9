import GoCell.Go.PackageClause

/-!
The entry point of a program: a line that starts the function `main` without
parameters.
-/

namespace GoCell.Go

def skipGap (l : List Char) : List Char := l.dropWhile isGap

/-- Whether a text starts with `(`, at most a gap, and `)`. -/
def startsNoParameters (l : List Char) : Bool :=
  match l with
  | '(' :: r => (skipGap r).head? == some ')'
  | _ => false

/-- Whether a line starts with `func main()`, gaps aside. -/
def startsMain (line : List Char) : Bool :=
  match ['f', 'u', 'n', 'c'].isPrefixOf? (skipGap line) with
  | some (c :: r) =>
    isGap c && match ['m', 'a', 'i', 'n'].isPrefixOf? (skipGap r) with
      | some r => startsNoParameters (skipGap r)
      | none => false
  | _ => false

def hasMain (text : String) : Bool := (text.toList.splitOn '\n').any startsMain

/-- Makes a body without entry point the body of one. -/
def wrapMain (body : String) : String :=
  "func main() \x7b\n" ++ String.ofList (Text.trimBreaks body.toList) ++ "\n\x7d"

end GoCell.Go
