/-!
A generated program in its sections.
-/

namespace GoCell

/-- The sections of a program. `package` has the package clause and the comments
before it. -/
structure Program where
  package : String
  imports : Option String := none
  body : String
  declarations : Option String := none
  accessors : Option String := none

/-- A text with a line break at its end. -/
def endLine (text : String) : String :=
  if text.toList.getLast? = some '\n' then text else text ++ "\n"

/-- The source text: the sections in their fixed order. -/
def Program.render (p : Program) : String :=
  endLine p.package ++ p.imports.getD "" ++ endLine p.body ++ p.declarations.getD "" ++
    p.accessors.getD ""

end GoCell
