import GoCell.Json.Reader

/-!
Reading JSON that must hold data of a given form. Nothing is read ahead: a
fault of the data is reported where it is met, before later faults of the text.
A record is written as an object, or as an array of its fields in order.
-/

namespace GoCell.Json

/-- The fault of a text that holds something else than what is wanted. Scalars are
read first, so a malformed one is reported as such. -/
def mistype (wanted : String) (l : List Char) : Fault :=
  match skipSpace l with
  | [] => .endInValue
  | c :: r =>
    if c = '[' then .mistyped .sequence wanted
    else if c = '{' then .mistyped .map wanted
    else match readValue 0 (c :: r) with
      | .ok (j, _) => .mistyped (.scalar j) wanted
      | .error f => f

def readString (l : List Char) : Scan String :=
  match skipSpace l with
  | [] => .error .endInValue
  | c :: r =>
    if c = '"' then (scanText r).map fun (cs, r) => (String.ofList cs, r)
    else .error (mistype "a string" (c :: r))

def readBool (l : List Char) : Scan Bool :=
  match skipSpace l with
  | [] => .error .endInValue
  | c :: r =>
    if c = 't' then (scanWord ['r', 'u', 'e'] r).map (true, ·)
    else if c = 'f' then (scanWord ['a', 'l', 's', 'e'] r).map (false, ·)
    else .error (mistype "a boolean" (c :: r))

/-- Reads `null` as nothing. -/
def readOption {α : Type} (read : List Char → Scan α) (l : List Char) : Scan (Option α) :=
  match skipSpace l with
  | [] => (read []).map fun (a, r) => (some a, r)
  | c :: r =>
    if c = 'n' then (scanWord ['u', 'l', 'l'] r).map (none, ·)
    else (read (c :: r)).map fun (a, r) => (some a, r)

/-- Reads an array. The reader of its elements is given the remaining depth. -/
def readList {α : Type} (item : Nat → List Char → Scan α) (depth : Nat) (l : List Char) :
    Scan (List α) :=
  match skipSpace l with
  | [] => .error .endInValue
  | c :: r =>
    if c = '[' then
      match depth with
      | 0 => .error .tooDeep
      | depth + 1 => readItems (item depth) (r.length + 1) true r
    else .error (mistype "a sequence" (c :: r))

/-- A field: its name, and how its value changes the record read so far. -/
structure Field (σ : Type) where
  name : String
  read : Nat → σ → List Char → Scan σ

/-- A field that is set by the value that `read` returns. -/
def Field.setting {σ α : Type} (name : String) (read : Nat → List Char → Scan α)
    (set : α → σ → σ) : Field σ where
  name := name
  read depth s l := (read depth l).map fun (a, l) => (set a s, l)

/-- How a record is written. A `lenient` record may have other members, which are
passed over; a `full` one must have all its fields where it is an array. -/
structure RecordForm (σ : Type) where
  wanted : String
  fields : List (Field σ)
  lenient : Bool
  full : Bool

namespace RecordForm

variable {σ : Type} (form : RecordForm σ)

/-- Reads one member, given its key and the names of the fields that were read
before. -/
def readMember (depth : Nat) (state : σ × List String) (key : String) (l : List Char) :
    Except Fault ((σ × List String) × List Char) := do
  match form.fields.find? (·.name == key) with
  | some field =>
    if key ∈ state.2 then .error (.duplicateField key)
    else
      let (s, l) ← field.read depth state.1 (← scanColon l)
      .ok ((s, key :: state.2), l)
  | none =>
    if form.lenient then .ok (state, ← skip (← scanColon l))
    else .error (.unknownField key (form.fields.map (·.name)))

/-- The end of an array all of whose fields have been read. -/
def scanArrayEnd (l : List Char) : Except Fault (List Char) :=
  match skipSpace l with
  | [] => .error .endInList
  | c :: r =>
    if c = ']' then .ok r
    else if c = ',' ∧ (skipSpace r).head? = some ']' then .error .trailingComma
    else .error .trailingCharacters

/-- Reads the fields of an array from the one at `position` on. -/
def readFields (depth : Nat) :
    List (Field σ) → Nat → σ → List Char → Except Fault (σ × List Char)
  | [], _, s, l => do .ok (s, ← scanArrayEnd l)
  | field :: fields, position, s, l => do
    match ← nextItem (position == 0) l with
    | .close rest =>
      if form.full then
        .error (.wrongLength position
          (form.wanted ++ " with " ++ toString form.fields.length ++ " elements"))
      else .ok (s, rest)
    | .entry l =>
      let (s, l) ← field.read depth s l
      readFields depth fields (position + 1) s l

/-- Reads a record, starting from the values that absent fields have. -/
def read (start : σ) (depth : Nat) (l : List Char) : Scan σ :=
  match skipSpace l with
  | [] => .error .endInValue
  | c :: r =>
    if c = '[' then
      match depth with
      | 0 => .error .tooDeep
      | depth + 1 => form.readFields depth form.fields 0 start r
    else if c = '{' then
      match depth with
      | 0 => .error .tooDeep
      | depth + 1 =>
        (foldMembers (form.readMember depth) (r.length + 1) true (start, []) r).map
          fun (s, r) => (s.1, r)
    else .error (mistype form.wanted (c :: r))

end RecordForm

end GoCell.Json
