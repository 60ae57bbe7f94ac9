import GoCell.Shell.Machine

/-!
From the pieces of a word to fields: the values of parameters are split where they
are not quoted, and fields that are patterns become the names that match.
-/

namespace GoCell.Shell

/-- A part of an expanded word: a character, the presence of a quoted part, or an
end of a field. A `gap` ends a field that there is, a `cut` also an empty one. -/
inductive Glyph
  | char (c : Char) (quoted : Bool)
  | present
  | gap
  | cut

def Glyph.quote : Glyph → Glyph
  | .char c _ => .char c true
  | g => g

/-- The characters of a quoted text. -/
def quotedGlyphs (l : List Char) : List Glyph := .present :: l.map (.char · true)

def plainGlyphs (l : List Char) : List Glyph := l.map (.char · false)

/-- A value with the ends of fields that the separators make of it. -/
def splitGlyphs (separators : String) (l : List Char) : List Glyph :=
  l.map fun c =>
    if separators.toList.contains c then
      if c = ' ' ∨ c = '\t' ∨ c = '\n' then .gap else .cut
    else .char c false

/-- The fields of an expanded word. `current` is the field so far, last character
first. -/
def fieldsFrom : Option (List Mark) → List Glyph → List (List Mark)
  | none, [] => []
  | some marks, [] => [marks.reverse]
  | current, .char c quoted :: r => fieldsFrom (some ((c, quoted) :: current.getD [])) r
  | current, .present :: r => fieldsFrom (some (current.getD [])) r
  | none, .gap :: r => fieldsFrom none r
  | some marks, .gap :: r => marks.reverse :: fieldsFrom none r
  | current, .cut :: r => (current.getD []).reverse :: fieldsFrom none r

def markText (marks : List Mark) : String := String.ofList (marks.map (·.1))

/-- The characters of an expanded word that is one field. -/
def glyphMarks (glyphs : List Glyph) : List Mark :=
  glyphs.filterMap fun
    | .char c quoted => some (c, quoted)
    | .cut => some (' ', true)
    | _ => none

/-- The names that match a pattern, in the directory that its path leads to. -/
def matchingNames (files : FileTree) (marks : List Mark) : List String :=
  let tail := (marks.reverse.takeWhile (·.1 ≠ '/')).reverse
  let lead := markText (marks.take (marks.length - tail.length))
  match files.find (if lead = "" then "." else lead) with
  | .ok (place, .directory) =>
    let hidden := (tail.head?.map (·.1)) == some '.'
    ((files.children place).filter fun name =>
      matchPattern tail name.toList && (hidden || name.toList.head? != some '.')).map (lead ++ ·)
  | _ => []

/-- A field as words: a pattern that matches anything becomes what it matches. -/
def globField (files : FileTree) (marks : List Mark) : List String :=
  if isPattern marks then
    match matchingNames files marks with
    | [] => [markText marks]
    | names => names
  else [markText marks]

/-- A parameter as it is written in braces: its name, and what is done to it. -/
structure Parameter where
  name : String
  measured : Bool
  operator : List Char
  operand : List Char

/-- The operators on parameters, the longer first. -/
def parameterOperators : List (List Char) :=
  [[':', '-'], [':', '='], [':', '+'], [':', '?'], ['%', '%'], ['#', '#'], ['-'], ['='], ['+'],
    ['?'], ['%'], ['#']]

def readParameter (source : List Char) : Parameter :=
  let (measured, body) := match source with
    | '#' :: c :: r =>
      if isNameChar c ∨ isSpecialParameter c then (true, c :: r) else (false, source)
    | l => (false, l)
  let (name, rest) := match body with
    | c :: r =>
      if isNameStart c then (body.takeWhile isNameChar, body.dropWhile isNameChar)
      else if c.isDigit then (body.takeWhile Char.isDigit, body.dropWhile Char.isDigit)
      else ([c], r)
    | [] => ([], [])
  let (operator, operand) := match parameterOperators.findSome? fun op =>
      (op.isPrefixOf? rest).map (op, ·) with
    | some found => found
    | none => ([], [])
  { name := String.ofList name, measured, operator, operand }

namespace Machine

def separators (m : Machine) : String := (m.lookup "IFS").getD " \t\n"

/-- The value of a parameter other than the list of arguments. -/
def parameter? (m : Machine) (name : String) : Option String :=
  match name with
  | "#" => some (toString m.arguments.length)
  | "?" => some (toString m.status)
  | "$" => some (toString mainPid)
  | "!" => m.jobs.getLast?.map fun job => toString job.pid
  | "-" => some (if m.stopOnFailure then "e" else "")
  | "0" => some m.name
  | "@" | "*" => if m.arguments.isEmpty then none else some (" ".intercalate m.arguments)
  | name =>
    if name.toList.all Char.isDigit then m.arguments[readDigits name.toList - 1]?
    else m.lookup name

/-- A value as part of a word. -/
def valueGlyphs (m : Machine) (quoted splits : Bool) (value : String) : List Glyph :=
  if quoted then quotedGlyphs value.toList
  else if splits then splitGlyphs m.separators value.toList
  else plainGlyphs value.toList

/-- The list of arguments as part of a word. -/
def argumentGlyphs (m : Machine) (quoted splits : Bool) (name : String) : List Glyph :=
  if quoted ∧ name = "@" then
    (m.arguments.map fun a => quotedGlyphs a.toList).intersperse [.cut] |>.flatten
  else if quoted ∨ !splits then m.valueGlyphs quoted splits (" ".intercalate m.arguments)
  else (m.arguments.map fun a => splitGlyphs m.separators a.toList).intersperse [.gap] |>.flatten

end Machine

end GoCell.Shell
