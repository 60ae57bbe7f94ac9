import GoCell.Go.Identifier
import GoCell.Text.Line
import GoCell.Text.Search

/-!
The package clause of a source text. Only blank lines and comments may stand
before it; together with them it is cut off the text, up to the end of its line.
-/

namespace GoCell.Go

/-- Spaces and tabs separate the words of a line. -/
def isGap (c : Char) : Bool := c == ' ' || c == '\t'

theorem isGap_iff {c : Char} : isGap c = true ↔ c = ' ' ∨ c = '\t' := by
  simp [isGap]

theorem lf_not_mem_gap {gap : List Char} (h : ∀ c ∈ gap, c = ' ' ∨ c = '\t') : '\n' ∉ gap := by
  intro hmem
  rcases h _ hmem with h | h <;> exact absurd h (by decide)

/-- What a line holds after the block comments at its start, and whether a comment
is still open at its end. `inside` says that one is open at its start. Each step
passes a comment mark, so the length of the line bounds them. -/
def leadingCode : Nat → Bool → List Char → Bool × List Char
  | 0, inside, _ => (inside, [])
  | bound + 1, true, l =>
    match Text.after? ['*', '/'] l with
    | none => (true, [])
    | some rest => leadingCode bound false rest
  | bound + 1, false, l =>
    let code := l.dropWhile Text.isBlank
    match ['/', '*'].isPrefixOf? code with
    | none => (false, code)
    | some rest => leadingCode bound true rest

/-- Whether nothing but a line comment is left. -/
def isVacant (code : List Char) : Bool :=
  let l := Text.trim code
  l.isEmpty || ['/', '/'].isPrefixOf l

/-- Whether code starts with `package`, a gap, and a name. -/
def startsClause (code : List Char) : Bool :=
  match ['p', 'a', 'c', 'k', 'a', 'g', 'e'].isPrefixOf? code with
  | some (c :: r) =>
    isGap c && match r.dropWhile isGap with
      | c :: _ => isIdentStart c
      | [] => false
  | _ => false

/-- Cuts lines after the one with the clause, which loses its line break. -/
def splitClauseLines (inside : Bool) :
    List (List Char) → Option (List (List Char) × List (List Char))
  | [] => none
  | line :: rest =>
    let (inside, code) := leadingCode (line.length + 1) inside line
    if isVacant code then
      (splitClauseLines inside rest).map fun (clause, rest) => (line :: clause, rest)
    else if startsClause code then some ([Text.trimBreaks line], rest)
    else none

/-- The clause with what stands before it, if there is one, and the rest. -/
def splitClause (body : String) : Option String × String :=
  match splitClauseLines false (Text.keptLines body.toList) with
  | some (clause, rest) => (some (String.ofList clause.flatten), String.ofList rest.flatten)
  | none => (none, body)

end GoCell.Go
