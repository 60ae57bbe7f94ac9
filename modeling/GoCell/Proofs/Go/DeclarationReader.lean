import GoCell.Proofs.Go.Declaration
import GoCell.Proofs.Go.LiteralText

/-!
Reading declarations from tokens: the word `var`, a name, a type, an equals sign and
one literal, with nothing after it. What is written for a binding reads back as its
name, the type it is declared under and the literal of its value.
-/

namespace GoCell.Go

/-- A variable declaration by its parts. -/
structure Declaration where
  name : String
  ty : Ty
  literal : Literal

/-! ### The reader -/

/-- A type in front of other tokens. -/
def Ty.read? : List Token → Option (Ty × List Token)
  | .leftBracket :: .rightBracket :: .leftBracket :: .rightBracket :: .word name :: r =>
    (Base.ofWord? name).map fun base => (⟨base, .table⟩, r)
  | .leftBracket :: .rightBracket :: .word name :: r =>
    (Base.ofWord? name).map fun base => (⟨base, .vector⟩, r)
  | .word name :: r => (Base.ofWord? name).map fun base => (⟨base, .scalar⟩, r)
  | _ => none

/-- An equals sign and a literal, up to the end. -/
def readInitializer? : List Token → Option Literal
  | .equals :: r =>
    match Literal.read? r with
    | some (lit, []) => some lit
    | _ => none
  | _ => none

def Declaration.read? : List Token → Option Declaration
  | .word keyword :: .word name :: r =>
    if keyword = "var".toList ∧ String.ofList name ∉ keywords then do
      let (ty, r) ← Ty.read? r
      return ⟨String.ofList name, ty, ← readInitializer? r⟩
    else none
  | _ => none

/-- The declaration that a text consists of. -/
def readDeclaration? (l : List Char) : Option Declaration := (tokens? l).bind Declaration.read?

/-! ### The tokens of a declaration -/

def Shape.tokens : Shape → List Token
  | .scalar => []
  | .vector => [.leftBracket, .rightBracket]
  | .table => [.leftBracket, .rightBracket, .leftBracket, .rightBracket]

def Ty.tokens (ty : Ty) : List Token := ty.shape.tokens ++ [.word ty.base.name.toList]

def Declaration.tokens (d : Declaration) : List Token :=
  .word "var".toList :: .word d.name.toList :: (d.ty.tokens ++ .equals :: d.literal.tokens)

theorem Ty.read?_tokens (ty : Ty) (rest : List Token) :
    Ty.read? (ty.tokens ++ rest) = some (ty, rest) := by
  obtain ⟨base, shape⟩ := ty
  cases shape <;> simp [Ty.tokens, Shape.tokens, Ty.read?]

theorem readInitializer?_tokens (lit : Literal) :
    readInitializer? (.equals :: lit.tokens) = some lit := by
  have hread := Literal.read?_tokens lit []
  rw [List.append_nil] at hread
  rw [readInitializer?, hread]

theorem Declaration.read?_tokens {d : Declaration} (h : d.name ∉ keywords) :
    Declaration.read? d.tokens = some d := by
  simp [Declaration.read?, Declaration.tokens, h, Ty.read?_tokens, readInitializer?_tokens]

theorem spells_shape {shape : Shape} {text : List Char} {ts : List Token} (h : Spells text ts) :
    Spells (shape.brackets.toList ++ text) (shape.tokens ++ ts) := by
  have hpair {text : List Char} {ts : List Token} (h : Spells text ts) :
      Spells ('[' :: ']' :: text) (.leftBracket :: .rightBracket :: ts) :=
    Spells.mark rfl (Spells.mark rfl h)
  cases shape with
  | scalar => exact h
  | vector => exact hpair h
  | table => exact hpair (hpair h)

theorem spells_ty (ty : Ty) : Spells ty.text.toList ty.tokens := by
  rw [Ty.text, String.toList_append]
  exact spells_shape (spells_word (by cases ty.base <;> decide))

theorem isIdentShape_of_isIdentifier {name : String} (h : isIdentifier name) :
    isIdentShape name.toList := by
  rw [isIdentifier, Bool.and_eq_true] at h
  exact h.1

theorem not_mem_keywords_of_isIdentifier {name : String} (h : isIdentifier name) :
    name ∉ keywords := by
  rw [isIdentifier, Bool.and_eq_true] at h
  simpa using h.2

/-- A declaration spells its tokens, and they end where it ends. -/
theorem spells_declareAs {ty : Ty} {b : Binding} {stmt : String} (h : declareAs ty b = .ok stmt) :
    Spells stmt.toList (Declaration.tokens ⟨b.name, ty, Literal.ofValue ty b.value⟩) := by
  obtain ⟨hname, text, htext, rfl⟩ := declareAs_eq_ok_iff.1 h
  have hlit := spells_literal htext
  have hinit := Spells.gap (c := ' ') rfl
    (Spells.mark (c := '=') rfl (Spells.gap (c := ' ') rfl hlit))
  have hty := Spells.gap (c := ' ') rfl ((spells_ty ty).append hinit rfl)
  have hrest := Spells.gap (c := ' ') rfl
    ((spells_word (isIdentShape_of_isIdentifier hname)).append hty rfl)
  have hvar : Spells "var".toList [.word "var".toList] := spells_word (by decide)
  have hall := hvar.append hrest rfl
  simpa [Declaration.tokens] using hall

/-- A declaration reads back as its name, its type and the literal of its value. -/
theorem readDeclaration?_declareAs {ty : Ty} {b : Binding} {stmt : String}
    (h : declareAs ty b = .ok stmt) :
    readDeclaration? stmt.toList = some ⟨b.name, ty, Literal.ofValue ty b.value⟩ := by
  obtain ⟨hname, -⟩ := declareAs_eq_ok_iff.1 h
  rw [readDeclaration?, (spells_declareAs h).tokens?_eq, Option.bind_some]
  exact Declaration.read?_tokens (not_mem_keywords_of_isIdentifier hname)

/-! ### The form and the size of a literal -/

/-- Whether a literal is written as one of a type. -/
def Literal.HasFormOf : Literal → Ty → Prop
  | .atom _, ty => ty.shape = .scalar
  | .vector base _, ty => ty = ⟨base, .vector⟩
  | .table _, ty => ty = ⟨.string, .table⟩

/-- Whether a literal has as many elements, or rows and cells in each row, as a value. -/
def Literal.HasSizeOf : Literal → Value → Prop
  | .atom _, v => v.isSeq = false
  | .vector _ items, .seq vs => items.length = vs.length
  | .table rows, .seq vs =>
    List.Forall₂ (fun cells row => cells.length = (rowCells row).length) rows vs
  | _, _ => False

/-- Under a type of its shape, a value has a literal of its own size. -/
theorem hasSizeOf_ofValue {ty : Ty} {v : Value} {text : String} (h : literal ty v = .ok text) :
    (Literal.ofValue ty v).HasSizeOf v := by
  obtain ⟨-, htext⟩ := literal_eq_ok_iff.1 h
  obtain ⟨base, shape⟩ := ty
  cases shape with
  | scalar =>
      cases v with
      | seq items => cases htext
      | _ => rfl
  | vector =>
      cases v with
      | seq items => exact List.length_map _
      | _ => cases htext
  | table =>
      cases v with
      | seq rows =>
          show List.Forall₂ _ (rows.map rowAtoms) rows
          rw [List.forall₂_map_left_iff, List.forall₂_same]
          exact fun row _ => by rw [rowAtoms_eq_map, List.length_map]
      | _ => cases htext

theorem hasFormOf_ofValue {ty : Ty} {v : Value} {text : String} (h : literal ty v = .ok text)
    (htable : ty.shape = .table → ty.base = .string) : (Literal.ofValue ty v).HasFormOf ty := by
  obtain ⟨-, htext⟩ := literal_eq_ok_iff.1 h
  obtain ⟨base, shape⟩ := ty
  cases shape with
  | scalar => cases v <;> rfl
  | vector =>
      cases v with
      | seq items => rfl
      | _ => cases htext
  | table =>
      obtain rfl : base = .string := htable rfl
      cases v with
      | seq rows => rfl
      | _ => cases htext

end GoCell.Go
