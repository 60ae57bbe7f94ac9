import GoCell.Json.Scanner

/-!
Reading JSON documents. The first problem met from the left is the one that is
reported. Nesting is limited: a reader has an allowance of containers that may
still be opened, and opening one lowers it.
-/

namespace GoCell.Json

/-- How many containers may be open at once. -/
def maxDepth : Nat := 127

/-- What comes next inside a container: an entry, with the text from it on, or the
closing bracket, with the text after it. -/
inductive Next (α : Type)
  | entry (a : α)
  | close (rest : List Char)

/-- Moves to the next element of an array. -/
def nextItem (isFirst : Bool) (l : List Char) : Except Fault (Next (List Char)) :=
  match skipSpace l with
  | [] => .error .endInList
  | c :: r =>
    if c = ']' then .ok (.close r)
    else if isFirst then .ok (.entry (c :: r))
    else if c = ',' then
      match skipSpace r with
      | [] => .error .endInValue
      | c :: r => if c = ']' then .error .trailingComma else .ok (.entry (c :: r))
    else .error .expectedItemEnd

/-- Moves to the next member of an object and reads its key. -/
def nextMember (isFirst : Bool) (l : List Char) :
    Except Fault (Next (String × List Char)) :=
  let key (l : List Char) : Except Fault (Next (String × List Char)) :=
    (scanText l).map fun (cs, r) => .entry (String.ofList cs, r)
  match skipSpace l with
  | [] => .error .endInObject
  | c :: r =>
    if c = '}' then .ok (.close r)
    else if isFirst then
      if c = '"' then key r else .error .keyNotString
    else if c = ',' then
      match skipSpace r with
      | [] => .error .endInValue
      | c :: r =>
        if c = '"' then key r
        else if c = '}' then .error .trailingComma
        else .error .keyNotString
    else .error .expectedMemberEnd

/-- Reads the colon after a key. -/
def scanColon (l : List Char) : Except Fault (List Char) :=
  match skipSpace l with
  | [] => .error .endInObject
  | c :: r => if c = ':' then .ok r else .error .expectedColon

/-- Reads the elements of an array, at most `bound` of them. -/
def readItems {α : Type} (item : List Char → Scan α) :
    Nat → Bool → List Char → Except Fault (List α × List Char)
  | 0, _, _ => .error .endInList
  | bound + 1, isFirst, l => do
    match ← nextItem isFirst l with
    | .close rest => .ok ([], rest)
    | .entry l =>
      let (a, l) ← item l
      let (as, rest) ← readItems item bound false l
      .ok (a :: as, rest)

/-- Folds `member` over the members of an object, at most `bound` of them. It is
given the key and the text after it. -/
def foldMembers {σ : Type} (member : σ → String → List Char → Scan σ) :
    Nat → Bool → σ → List Char → Except Fault (σ × List Char)
  | 0, _, _, _ => .error .endInObject
  | bound + 1, isFirst, s, l => do
    match ← nextMember isFirst l with
    | .close rest => .ok (s, rest)
    | .entry (key, l) =>
      let (s, l) ← member s key l
      foldMembers member bound false s l

/-- Reads a document from the front of a text. An array or an object has fewer
entries than its text has characters, so that length bounds them. -/
def readValue (depth : Nat) (l : List Char) : Except Fault (Json × List Char) :=
  match skipSpace l with
  | [] => .error .endInValue
  | c :: r =>
    if c = 'n' then (scanWord ['u', 'l', 'l'] r).map (.null, ·)
    else if c = 't' then (scanWord ['r', 'u', 'e'] r).map (.bool true, ·)
    else if c = 'f' then (scanWord ['a', 'l', 's', 'e'] r).map (.bool false, ·)
    else if c = '"' then (scanText r).map fun (cs, r) => (.string (String.ofList cs), r)
    else if c = '-' ∨ c.isDigit then do
      let (n, r) ← scanNumber .endInValue (c :: r)
      .ok (← n.toJson, r)
    else if c = '[' then
      match depth with
      | 0 => .error .tooDeep
      | depth + 1 =>
        (readItems (readValue depth) (r.length + 1) true r).map fun (js, r) => (.array js, r)
    else if c = '{' then
      match depth with
      | 0 => .error .tooDeep
      | depth + 1 =>
        let member (ms : List (String × Json)) (key : String) (l : List Char) :
            Except Fault (List (String × Json) × List Char) := do
          let (j, l) ← readValue depth (← scanColon l)
          .ok (setMember key j ms, l)
        (foldMembers member (r.length + 1) true [] r).map fun (ms, r) => (.object ms, r)
    else .error .expectedValue

/-- Nothing but space may follow a document. -/
def finish {α : Type} : α × List Char → Except Fault α
  | (a, rest) => if (skipSpace rest).isEmpty then .ok a else .error .trailingCharacters

/-- Reads a whole text as one document. -/
def parse (text : String) : Except Fault Json := do
  finish (← readValue maxDepth text.toList)

/-- The containers that are open while a value is passed over, innermost first. -/
inductive Container
  | array
  | object

/-- Passes over a member's key and colon. -/
def skipKey (l : List Char) : Except Fault (List Char) :=
  match skipSpace l with
  | [] => .error .endInObject
  | c :: r => do
    if c = '"' then scanColon (← skipText r) else .error .keyNotString

/-- Passes over the ends of containers, and over the comma before the next entry.
`separated` says that an entry has just ended. The result is the open containers
and the text from the next value on. -/
def skipEnds : List Container → Bool → List Char → Except Fault (List Container × List Char)
  | [], _, l => .ok ([], l)
  | inner :: outer, separated, l =>
    match skipSpace l with
    | [] => .error (match inner with | .array => .endInList | .object => .endInObject)
    | c :: r =>
      let next (l : List Char) : Except Fault (List Container × List Char) :=
        match inner with
        | .array => .ok (inner :: outer, l)
        | .object => (skipKey l).map (inner :: outer, ·)
      if c = ',' ∧ separated then next r
      else if c = (match inner with | .array => ']' | .object => '}') then skipEnds outer true r
      else if separated then
        .error (match inner with | .array => .expectedItemEnd | .object => .expectedMemberEnd)
      else next (c :: r)

/-- Passes over a value whose content is of no interest, at most `bound` tokens
long. Its syntax is checked; its numbers need not be in range, and it may be
nested to any depth. -/
def skipValue : Nat → List Container → List Char → Except Fault (List Char)
  | 0, _, _ => .error .endInValue
  | bound + 1, stack, l => do
    let resume (stack : List Container) (separated : Bool) (l : List Char) :
        Except Fault (List Char) := do
      match ← skipEnds stack separated l with
      | ([], rest) => .ok rest
      | (stack, rest) => skipValue bound stack rest
    match skipSpace l with
    | [] => .error .endInValue
    | c :: r =>
      if c = 'n' then resume stack true (← scanWord ['u', 'l', 'l'] r)
      else if c = 't' then resume stack true (← scanWord ['r', 'u', 'e'] r)
      else if c = 'f' then resume stack true (← scanWord ['a', 'l', 's', 'e'] r)
      else if c = '"' then resume stack true (← skipText r)
      else if c = '-' ∨ c.isDigit then
        let (_, r) ← scanNumber .invalidNumber (c :: r)
        resume stack true r
      else if c = '[' then resume (.array :: stack) false r
      else if c = '{' then resume (.object :: stack) false r
      else .error .expectedValue

/-- Passes over one value. -/
def skip (l : List Char) : Except Fault (List Char) := skipValue (l.length + 1) [] l

end GoCell.Json
