import GoCell.Go.Typing
import GoCell.Proofs.Go.Token

/-!
Reading literals from tokens. A literal is an atom, a vector of atoms with the
element type that its text declares, or a table: a vector of rows, each with its
own type. The tokens of a literal read back as that literal, whatever follows.
-/

namespace GoCell.Go

open Text (length_le_length_intercalate)

/-- A number or a text. The sign of a number stands apart, so that a negative zero
is one of the spellings of zero. -/
inductive Atom
  | integer (negative : Bool) (n : Nat)
  | decimal (negative : Bool) (digits places : Nat)
  | text (bytes : List UInt8)
  deriving DecidableEq

inductive Literal
  | atom (a : Atom)
  | vector (base : Base) (items : List Atom)
  | table (rows : List (List Atom))
  deriving DecidableEq

/-! ### The reader -/

def readAtom? : List Token → Option (Atom × List Token)
  | .minus :: .integer n :: r => some (.integer true n, r)
  | .minus :: .decimal digits places :: r => some (.decimal true digits places, r)
  | .integer n :: r => some (.integer false n, r)
  | .decimal digits places :: r => some (.decimal false digits places, r)
  | .text bytes :: r => some (.text bytes, r)
  | _ => none

section Sequence

variable {α : Type} (item? : List Token → Option (α × List Token))

/-- Items with commas between them, at least one and at most `bound`, up to a
closing brace. -/
def readItems? : Nat → List Token → Option (List α × List Token)
  | 0, _ => none
  | bound + 1, ts =>
    match item? ts with
    | some (x, .comma :: r) => (readItems? bound r).map (Prod.map (x :: ·) id)
    | some (x, .rightBrace :: r) => some ([x], r)
    | _ => none

/-- Items in braces. Every item takes a token, so their number bounds the items. -/
def readBraced? : List Token → Option (List α × List Token)
  | .leftBrace :: .rightBrace :: r => some ([], r)
  | .leftBrace :: r => readItems? item? r.length r
  | _ => none

end Sequence

/-- The element type that a word names. -/
def Base.ofWord? (name : List Char) : Option Base :=
  if name = Base.int.name.toList then some .int
  else if name = Base.float32.name.toList then some .float32
  else if name = Base.string.name.toList then some .string
  else none

/-- A vector, from its type on. -/
def readVector? : List Token → Option ((Base × List Atom) × List Token)
  | .leftBracket :: .rightBracket :: .word name :: r =>
    (Base.ofWord? name).bind fun base => (readBraced? readAtom? r).map (Prod.map (base, ·) id)
  | _ => none

/-- A row of a table is a vector of texts. -/
def readRow? (ts : List Token) : Option (List Atom × List Token) :=
  match readVector? ts with
  | some ((.string, cells), r) => some (cells, r)
  | _ => none

def Literal.read? : List Token → Option (Literal × List Token)
  | .leftBracket :: .rightBracket :: .leftBracket :: .rightBracket :: .word name :: r =>
    if Base.ofWord? name = some .string then (readBraced? readRow? r).map (Prod.map .table id)
    else none
  | .leftBracket :: r =>
    (readVector? (.leftBracket :: r)).map (Prod.map (fun (base, items) => .vector base items) id)
  | ts => (readAtom? ts).map (Prod.map .atom id)

/-- The literal that a text consists of. -/
def readLiteral? (l : List Char) : Option Literal :=
  match (tokens? l).bind Literal.read? with
  | some (lit, []) => some lit
  | _ => none

/-! ### The tokens of a literal -/

def Atom.tokens : Atom → List Token
  | .integer true n => [.minus, .integer n]
  | .integer false n => [.integer n]
  | .decimal true digits places => [.minus, .decimal digits places]
  | .decimal false digits places => [.decimal digits places]
  | .text bytes => [.text bytes]

def bracedTokens (tss : List (List Token)) : List Token :=
  .leftBrace :: ([Token.comma].intercalate tss ++ [.rightBrace])

def vectorTokens (base : Base) (items : List Atom) : List Token :=
  .leftBracket :: .rightBracket :: .word base.name.toList :: bracedTokens (items.map Atom.tokens)

def Literal.tokens : Literal → List Token
  | .atom a => a.tokens
  | .vector base items => vectorTokens base items
  | .table rows =>
    .leftBracket :: .rightBracket :: .leftBracket :: .rightBracket ::
      .word Base.string.name.toList :: bracedTokens (rows.map (vectorTokens .string))

@[simp] theorem readAtom?_tokens (a : Atom) (rest : List Token) :
    readAtom? (a.tokens ++ rest) = some (a, rest) := by
  cases a with
  | integer negative n => cases negative <;> rfl
  | decimal negative digits places => cases negative <;> rfl
  | text bytes => rfl

@[simp] theorem Base.ofWord?_name (base : Base) : Base.ofWord? base.name.toList = some base := by
  cases base <;> decide

section Sequence

variable {α : Type} {item? : List Token → Option (α × List Token)} {tokens : α → List Token}

theorem readItems?_intercalate (hitem : ∀ x rest, item? (tokens x ++ rest) = some (x, rest))
    {xs : List α} (hne : xs ≠ []) {bound : Nat} (hbound : xs.length ≤ bound) (rest : List Token) :
    readItems? item? bound ([Token.comma].intercalate (xs.map tokens) ++ .rightBrace :: rest) =
      some (xs, rest) := by
  induction xs generalizing bound with
  | nil => exact absurd rfl hne
  | cons x xs ih =>
      obtain ⟨bound, rfl⟩ : ∃ k, bound = k + 1 :=
        Nat.exists_eq_succ_of_ne_zero (by simp at hbound; omega)
      cases xs with
      | nil => simp [readItems?, hitem]
      | cons y xs =>
          have htail := ih (by simp) (by simpa using hbound)
          rw [List.map_cons, List.map_cons, List.intercalate_cons_cons, List.append_assoc,
            List.append_assoc, readItems?, hitem]
          simpa using htail

theorem readBraced?_leftBrace {r : List Token} (h : r.head? ≠ some .rightBrace) :
    readBraced? item? (.leftBrace :: r) = readItems? item? r.length r := by
  cases r with
  | nil => rfl
  | cons t r => cases t <;> simp_all [readBraced?]

theorem readBraced?_bracedTokens (hitem : ∀ x rest, item? (tokens x ++ rest) = some (x, rest))
    (hbrace : ∀ rest, item? (.rightBrace :: rest) = none) (xs : List α) (rest : List Token) :
    readBraced? item? (bracedTokens (xs.map tokens) ++ rest) = some (xs, rest) := by
  cases xs with
  | nil => rfl
  | cons x xs =>
      have hhead (more : List Token) : (tokens x ++ more).head? ≠ some .rightBrace := by
        intro h
        obtain ⟨r, hr⟩ := List.head?_eq_some_iff.1 h
        have hread := hitem x more
        rw [hr, hbrace] at hread
        cases hread
      have hfirst : ∃ more, [Token.comma].intercalate ((x :: xs).map tokens) ++
          .rightBrace :: rest = tokens x ++ more := by
        cases xs with
        | nil => exact ⟨_, by simp; rfl⟩
        | cons y xs =>
            rw [List.map_cons, List.map_cons, List.intercalate_cons_cons, List.append_assoc,
              List.append_assoc]
            exact ⟨_, rfl⟩
      have hbound := length_le_length_intercalate Token.comma ((x :: xs).map tokens)
      rw [bracedTokens, List.cons_append, List.append_assoc, List.singleton_append,
        readBraced?_leftBrace]
      · refine readItems?_intercalate hitem (by simp) ?_ rest
        simp only [List.length_map, List.length_append, List.length_cons] at *
        omega
      · obtain ⟨more, hmore⟩ := hfirst
        rw [hmore]
        exact hhead more

end Sequence

theorem readVector?_tokens (base : Base) (items : List Atom) (rest : List Token) :
    readVector? (vectorTokens base items ++ rest) = some ((base, items), rest) := by
  have hitems := readBraced?_bracedTokens readAtom?_tokens (fun _ => rfl) items rest
  simp [vectorTokens, readVector?, hitems]

theorem readRow?_tokens (cells : List Atom) (rest : List Token) :
    readRow? (vectorTokens .string cells ++ rest) = some (cells, rest) := by
  rw [readRow?, readVector?_tokens]

/-- The tokens of a literal read back, whatever follows them. -/
theorem Literal.read?_tokens (lit : Literal) (rest : List Token) :
    Literal.read? (lit.tokens ++ rest) = some (lit, rest) := by
  cases lit with
  | atom a =>
      -- An atom starts with no bracket, so its tokens are read as those of an atom.
      cases a with
      | integer negative n => cases negative <;> rfl
      | decimal negative digits places => cases negative <;> rfl
      | text bytes => rfl
  | vector base items =>
      have hvector := readVector?_tokens base items rest
      simp only [vectorTokens, List.cons_append] at hvector
      simp [Literal.tokens, vectorTokens, Literal.read?, hvector]
  | table rows =>
      have hrows := readBraced?_bracedTokens readRow?_tokens (fun _ => rfl) rows rest
      simp [Literal.tokens, Literal.read?, hrows]

end GoCell.Go
