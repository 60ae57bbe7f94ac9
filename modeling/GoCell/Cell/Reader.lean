import GoCell.Cell.Basic
import GoCell.Json.Record
import GoCell.Text.Blank
import GoCell.Value.Json

/-!
Reading a cell from JSON. All its fields may be absent; a field that it does not
have is a fault.
-/

namespace GoCell

open Json

/-- Reads any document as a value. -/
def Value.read (depth : Nat) (l : List Char) : Scan Value :=
  (readValue depth l).map fun (j, l) => (Value.ofJson j, l)

/-- A document that is one value. -/
def Value.parse (text : String) : Except Fault Value :=
  (Json.parse text).map Value.ofJson

/-- A binding or columns half read. -/
structure Pending (α β : Type) where
  first : Option α
  second : Option β

/-- A record of two fields, both required. -/
def pairForm {α β : Type} (wanted : String) (firstName secondName : String)
    (first : Nat → List Char → Scan α) (second : Nat → List Char → Scan β) :
    RecordForm (Pending α β) where
  wanted := wanted
  fields := [.setting firstName first fun a p => { p with first := some a },
    .setting secondName second fun b p => { p with second := some b }]
  lenient := true
  full := true

/-- Reads a record of two fields. -/
def readPair {α β : Type} (wanted : String) (firstName secondName : String)
    (first : Nat → List Char → Scan α) (second : Nat → List Char → Scan β)
    (depth : Nat) (l : List Char) : Scan (α × β) :=
  match (pairForm wanted firstName secondName first second).read ⟨none, none⟩ depth l with
  | .error f => .error f
  | .ok (⟨some a, some b⟩, l) => .ok ((a, b), l)
  | .ok (⟨none, _⟩, _) => .error (.missingField firstName)
  | .ok (⟨some _, none⟩, _) => .error (.missingField secondName)

def Binding.read (depth : Nat) (l : List Char) : Scan Binding :=
  (readPair "struct Binding" "name" "value" (fun _ => readString) Value.read depth l).map
    fun ((name, value), l) => ({ name, value }, l)

def Columns.read (depth : Nat) (l : List Char) : Scan Columns :=
  (readPair "struct ColumnSpec" "table" "columns" (fun _ => readString)
    (readList fun _ => readString) depth l).map
    fun ((table, names), l) => ({ table, names }, l)

/-- The texts of an array that holds nothing else. -/
def Json.strings? : List Json → Option (List String)
  | [] => some []
  | .string s :: js => (strings? js).map (s :: ·)
  | _ :: _ => none

/-- Imports are a list of texts, or a single one, which may be blank. -/
def importsOfJson? : Json → Option (List String)
  | .null => some []
  | .string s => some (if s.toList.all Text.isBlank then [] else [s])
  | .array js => strings? js
  | _ => none

def readImports (depth : Nat) (l : List Char) : Except Fault (List String × List Char) := do
  let (j, l) ← readValue depth l
  match importsOfJson? j with
  | some imports => .ok (imports, l)
  | none => .error (.noVariant "OneOrMany")

namespace ResultShape

def names : List String := ["raw", "scalar", "table"]

def ofName? (name : String) : Option ResultShape :=
  if name = "raw" then some .raw
  else if name = "scalar" then some .scalar
  else if name = "table" then some .table
  else none

def ofName (name : String) : Except Fault ResultShape :=
  match ofName? name with
  | some shape => .ok shape
  | none => .error (.unknownVariant name names)

/-- Reads the `null` that belongs to a name. -/
def readUnit (l : List Char) : Except Fault (List Char) :=
  match skipSpace l with
  | [] => .error .endInValue
  | c :: r =>
    if c = 'n' then scanWord ['u', 'l', 'l'] r else .error (mistype "unit" (c :: r))

/-- Reads a shape: its name, or an object whose only member has that name and the
value `null`. -/
def read (depth : Nat) (l : List Char) : Except Fault (ResultShape × List Char) :=
  match skipSpace l with
  | [] => .error .endInValue
  | c :: r =>
    if c = '"' then do
      let (name, r) ← readString (c :: r)
      .ok (← ofName name, r)
    else if c ≠ '{' then .error .expectedValue
    else if depth = 0 then .error .tooDeep
    else do
      match ← nextMember true r with
      | .close _ => .error .expectedValue
      | .entry (name, r) =>
        let shape ← ofName name
        let r ← readUnit (← scanColon r)
        match skipSpace r with
        | [] => .error .endInObject
        | c :: r => if c = '}' then .ok (shape, r) else .error .expectedValue

end ResultShape

namespace Cell

/-- The fields of a cell. -/
def form : RecordForm Cell where
  wanted := "struct Params"
  fields := [
    .setting "body" (fun _ => readString) fun a c => { c with body := a },
    .setting "package" (fun _ => readOption readString) fun a c => { c with package := a },
    .setting "imports" readImports fun a c => { c with imports := a },
    .setting "vars" (readList Binding.read) fun a c => { c with bindings := a },
    .setting "columns" (readList Columns.read) fun a c => { c with columns := a },
    .setting "colnames" (fun _ => readBool) fun a c => { c with headers := a },
    .setting "main" (fun _ => readBool) fun a c => { c with entryPoint := a },
    .setting "session" (fun _ => readOption readString) fun a c => { c with session := a },
    .setting "flags" (readList fun _ => readString) fun a c => { c with flags := a },
    .setting "args" (readList fun _ => readString) fun a c => { c with arguments := a },
    .setting "results" ResultShape.read fun a c => { c with results := a }]
  lenient := false
  full := false

/-- Reads a whole text as one cell. -/
def parse (text : String) : Except Fault Cell := do
  finish (← form.read {} maxDepth text.toList)

end Cell

/-- Values by name. -/
abbrev References := List (String × Value)

/-- Reads a whole text as an object of named values; the last of a repeated name
counts. -/
def References.parse (text : String) : Except Fault References := do
  match skipSpace text.toList with
  | [] => .error .endInValue
  | c :: r =>
    if c = '{' then
      let member (refs : References) (key : String) (l : List Char) :
          Except Fault (References × List Char) := do
        let (v, l) ← Value.read (maxDepth - 1) (← scanColon l)
        .ok (setMember key v refs, l)
      finish (← foldMembers member (r.length + 1) true [] r)
    else .error (mistype "a map" (c :: r))

end GoCell
