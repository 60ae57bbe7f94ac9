import GoCell.Go.Declaration
import GoCell.Go.EntryPoint
import GoCell.Go.ImportBlock
import GoCell.Program.Basic
import GoCell.Table.Accessor
import GoCell.Table.Header

/-!
Making a program from a cell. The body is cut once, into its package clause and
the rest; every other section is written on its own.
-/

namespace GoCell

namespace Cell

/-- The name for the package of a body that declares none. -/
def packageName (settings : Settings) (cell : Cell) : String :=
  match cell.package.map (Text.trim ·.toList) with
  | some (c :: r) => String.ofList (c :: r)
  | _ => settings.package

/-- The package section. -/
def packageSection (settings : Settings) (cell : Cell) : Except GenerationError String :=
  match (Go.splitClause cell.body).1 with
  | some clause => .ok clause
  | none => do
    let name := cell.packageName settings
    Go.checkName .package name
    return "package " ++ name

/-- The body section. -/
def bodySection (cell : Cell) : String :=
  let rest := (Go.splitClause cell.body).2
  if cell.entryPoint && !Go.hasMain rest then Go.wrapMain rest
  else String.ofList (Text.trimBreaks rest.toList)

/-- The bindings and the columns of a cell, after headers are taken where asked. -/
def tables (cell : Cell) : List Binding × List Columns :=
  if cell.headers then
    let (bs, taken) := Table.takeHeaders cell.columns cell.bindings
    (bs, cell.columns ++ taken)
  else (cell.bindings, cell.columns)

/-- Whether a binding is an empty sequence that is known to be a table. -/
def isEmptyTable (columns : List Columns) (b : Binding) : Bool :=
  match b.value with
  | .seq [] => columns.any (·.table == b.name)
  | _ => false

/-- The declaration of a binding beside the known columns. -/
def declaration (settings : Settings) (columns : List Columns) (b : Binding) :
    Except GenerationError String :=
  if isEmptyTable columns b then Go.declareAs ⟨.string, .table⟩ b
  else Go.declare settings.strict b

/-- The section of the bindings, if there are any. -/
def declarationsSection (settings : Settings) (columns : List Columns) (bs : List Binding) :
    Except GenerationError (Option String) := do
  if bs.isEmpty then return none
  let lines ← bs.mapM (declaration settings columns)
  return some (String.join (lines.map (· ++ "\n")))

/-- The program of a cell. -/
def assemble (settings : Settings) (cell : Cell) : Except GenerationError Program := do
  if cell.wantsSession then throw .sessionRequested
  let package ← cell.packageSection settings
  let (bindings, columns) := cell.tables
  let declarations ← declarationsSection settings columns bindings
  let accessors ← Table.accessors? columns
  return {
    package
    imports := Go.importBlock? cell.imports
    body := cell.bodySection
    declarations
    accessors }

/-- The source text of the program of a cell. -/
def generate (settings : Settings) (cell : Cell) : Except GenerationError String :=
  (cell.assemble settings).map Program.render

end Cell

end GoCell
