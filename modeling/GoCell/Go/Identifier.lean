import GoCell.Error
import GoCell.Text.Letter

/-!
Go identifiers: a letter or underscore, then letters, underscores and decimal
digits, and not a keyword.
-/

namespace GoCell.Go

def keywords : List String :=
  ["break", "case", "chan", "const", "continue", "default", "defer", "else",
    "fallthrough", "for", "func", "go", "goto", "if", "import", "interface", "map",
    "package", "range", "return", "select", "struct", "switch", "type", "var"]

/-- The characters an identifier may start with. -/
def isIdentStart (c : Char) : Bool := c == '_' || Text.isLetter c

def isIdentChar (c : Char) : Bool := isIdentStart c || Text.isDecimalDigit c

def isIdentShape : List Char → Bool
  | [] => false
  | c :: r => isIdentStart c && r.all isIdentChar

def isIdentifier (name : String) : Bool :=
  isIdentShape name.toList && !keywords.contains name

/-- Fails unless the name is an identifier. -/
def checkName (role : NameRole) (name : String) : Except GenerationError Unit :=
  if isIdentifier name then .ok () else .error (.invalidName role name)

end GoCell.Go
