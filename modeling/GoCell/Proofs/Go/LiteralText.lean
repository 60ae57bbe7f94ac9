import GoCell.Go.Literal
import GoCell.Proofs.Go.LiteralReader
import GoCell.Proofs.Number.FixedPoint

/-!
What the text of a literal reads back as. Every value with finite floats, under
every type of its shape, is written as the text of one literal, so the reader
never sees where one element ends by the characters in it.
-/

namespace GoCell.Go

/-- The atom that the literal of a finite double spells. -/
def Atom.ofBinary64 : Binary64 → Atom
  | .finite negative index => .decimal negative (Binary64.toPlaces floatPlaces index) floatPlaces
  | _ => .decimal false 0 floatPlaces

/-- The atom of a text. -/
def Atom.ofText (s : String) : Atom := .text (s.toList.flatMap String.utf8EncodeChar)

/-- The atom that a single value spells under the rule of an element type. -/
def Atom.ofValue (base : Base) (v : Value) : Atom :=
  match base, v with
  | .int, .int n => .integer (n.toInt < 0) n.toInt.natAbs
  | .float32, .int n => ofBinary64 (.ofInt n.toInt)
  | .float32, .float x => ofBinary64 x
  | .string, .text s => ofText s
  | _, v => ofText v.display

/-- The atom of a cell, under the rule of its own type. -/
def Atom.ofCell (cell : Value) : Atom := ofValue (scalarBase cell) cell

/-- The cells of a row; a row that is no sequence is its only cell. -/
def rowAtoms : Value → List Atom
  | .seq cells => cells.map Atom.ofCell
  | cell => [Atom.ofCell cell]

/-- The cells that stand in a row of a table. -/
def rowCells : Value → List Value
  | .seq cells => cells
  | cell => [cell]

theorem rowAtoms_eq_map (row : Value) : rowAtoms row = (rowCells row).map Atom.ofCell := by
  cases row <;> rfl

/-- The literal that a value spells under a type of its shape. -/
def Literal.ofValue (ty : Ty) (v : Value) : Literal :=
  match ty.shape, v with
  | .vector, .seq items => .vector ty.base (items.map (Atom.ofValue ty.base))
  | .table, .seq rows => .table (rows.map rowAtoms)
  | _, v => .atom (Atom.ofValue ty.base v)

/-! ### Atoms -/

theorem spells_writeInt (n : Int) :
    Spells (writeInt n) (Atom.integer (n < 0) n.natAbs).tokens := by
  by_cases hn : n < 0
  · simpa [writeInt, hn, Atom.tokens] using
      Spells.mark (c := '-') rfl (spells_writeNat n.natAbs)
  · simpa [writeInt, hn, Atom.tokens] using spells_writeNat n.natAbs

theorem spells_quote (s : String) : Spells (quote s).toList (Atom.ofText s).tokens := by
  simpa [quote, Atom.ofText, Atom.tokens] using spells_quoteChars s.toList

theorem spells_floatLiteral {x : Binary64} (h : x.isFinite) :
    Spells (floatLiteral x).toList (Atom.ofBinary64 x).tokens := by
  cases x with
  | finite negative index =>
      have hplaces := spells_writePlaces (show 0 < floatPlaces by decide)
        (Binary64.toPlaces floatPlaces index)
      cases negative with
      | true =>
          simpa [floatLiteral, Binary64.writeFixed, Atom.ofBinary64, Atom.tokens] using
            Spells.mark (c := '-') rfl hplaces
      | false =>
          simpa [floatLiteral, Binary64.writeFixed, Atom.ofBinary64, Atom.tokens] using hplaces
  | infinite negative => simp [Binary64.isFinite] at h
  | nan => simp [Binary64.isFinite] at h

theorem natAbs_toInt_lt (n : Int64) : n.toInt.natAbs < 2 ^ 64 := by
  have hlow := n.le_toInt
  have hhigh := n.toInt_lt
  omega

theorem spells_scalarLiteral (base : Base) {v : Value} (h : firstNonFinite? v = none) :
    Spells (scalarLiteral base v).toList (Atom.ofValue base v).tokens := by
  fun_cases scalarLiteral base v with
  | case1 n => simpa [Atom.ofValue] using spells_writeInt n.toInt
  | case2 n => exact spells_floatLiteral (Binary64.isFinite_ofInt (natAbs_toInt_lt n))
  | case3 x =>
      have hfinite : x.isFinite := by
        simpa [firstNonFinite?] using h
      exact spells_floatLiteral hfinite
  | case4 s => exact spells_quote s
  | case5 base v hint hfloatInt hfloat htext =>
      have hatom : Atom.ofValue base v = Atom.ofText v.display := by
        rw [Atom.ofValue.eq_def]
        split <;> simp_all
      rw [hatom]
      exact spells_quote v.display

theorem firstNonFinite?_eq_none_of_mem {items : List Value} {v : Value}
    (h : firstNonFinite? (.seq items) = none) (hv : v ∈ items) : firstNonFinite? v = none := by
  rw [firstNonFinite?, firstNonFiniteIn?_eq_findSome?, List.findSome?_eq_none_iff] at h
  exact h v hv

/-! ### Composite literals -/

theorem spells_vectorType (base : Base) :
    Spells ("[]" ++ base.name).toList [.leftBracket, .rightBracket, .word base.name.toList] := by
  have hword : Spells base.name.toList [.word base.name.toList] :=
    spells_word (by cases base <;> decide)
  simpa using Spells.mark (c := '[') rfl (Spells.mark (c := ']') rfl hword)

theorem spells_composite (base : Base) {items : List String} {atoms : List Atom}
    (hitems : List.Forall₂ Spells (items.map String.toList) (atoms.map Atom.tokens)) :
    Spells (composite ("[]" ++ base.name) items).toList (vectorTokens base atoms) := by
  have hclose : Spells ['\x7d'] [.rightBrace] := Spells.mark rfl Spells.nil
  have hbody := (Spells.intercalate (l := []) (by simp) hitems).append hclose rfl
  have hopen := Spells.mark (c := '\x7b') rfl hbody
  have hall := (spells_vectorType base).append hopen rfl
  simpa [composite, vectorTokens, bracedTokens, String.toList_intercalate] using hall

/-- Items that are written one by one, each from its own value. -/
theorem forall₂_spells {α β : Type} {items : List β} {write : β → String} {atom : β → α}
    {tokens : α → List Token} (h : ∀ v ∈ items, Spells (write v).toList (tokens (atom v))) :
    List.Forall₂ Spells ((items.map write).map String.toList)
      ((items.map atom).map tokens) := by
  rw [List.map_map, List.map_map, List.forall₂_map_left_iff, List.forall₂_map_right_iff,
    List.forall₂_same]
  exact h

theorem spells_cellLiteral {cell : Value} (h : firstNonFinite? cell = none) :
    Spells (cellLiteral cell).toList (Atom.ofCell cell).tokens :=
  spells_scalarLiteral (scalarBase cell) h

theorem spells_rowLiteral {row : Value} (h : firstNonFinite? row = none) :
    Spells (rowLiteral row).toList (vectorTokens .string (rowAtoms row)) := by
  have hcells (cells : List Value) (hcells : ∀ cell ∈ cells, firstNonFinite? cell = none) :
      Spells (composite "[]string" (cells.map cellLiteral)).toList
        (vectorTokens .string (cells.map Atom.ofCell)) :=
    spells_composite .string
      (forall₂_spells fun cell hcell => spells_cellLiteral (hcells cell hcell))
  cases row with
  | seq cells => exact hcells cells fun cell hcell => firstNonFinite?_eq_none_of_mem h hcell
  | _ => exact hcells [_] (by simpa using h)

theorem spells_tableLiteral {rows : List Value} (h : firstNonFinite? (.seq rows) = none) :
    Spells (tableLiteral rows).toList (Literal.table (rows.map rowAtoms)).tokens := by
  have hrows : List.Forall₂ Spells ((rows.map rowLiteral).map String.toList)
      ((rows.map rowAtoms).map (vectorTokens .string)) :=
    forall₂_spells fun row hrow => spells_rowLiteral (firstNonFinite?_eq_none_of_mem h hrow)
  have hclose : Spells [' ', '\x7d'] [.rightBrace] :=
    Spells.gap rfl (Spells.mark rfl Spells.nil)
  have hbody := (Spells.intercalate (l := [' ']) (by simp [isGap]) hrows).append hclose rfl
  have hopen := Spells.mark (c := '\x7b') rfl (Spells.gap (c := ' ') rfl hbody)
  have htype := (spells_vectorType .string).append hopen rfl
  have hall := Spells.mark (c := '[') rfl (Spells.mark (c := ']') rfl htype)
  simpa [tableLiteral, Literal.tokens, bracedTokens, Base.name, String.toList_intercalate]
    using hall

/-- Under a type of its shape, a value is written as the text of one literal. -/
theorem spells_shapedLiteral {ty : Ty} {v : Value} {text : String}
    (hfinite : firstNonFinite? v = none) (h : shapedLiteral ty v = .ok text) :
    Spells text.toList (Literal.ofValue ty v).tokens := by
  obtain ⟨base, shape⟩ := ty
  cases shape with
  | scalar =>
      cases v with
      | seq items => cases h
      | _ =>
          cases h
          exact spells_scalarLiteral base hfinite
  | vector =>
      cases v with
      | seq items =>
          cases h
          exact spells_composite base
            (forall₂_spells fun v hv =>
              spells_scalarLiteral base (firstNonFinite?_eq_none_of_mem hfinite hv))
      | _ => cases h
  | table =>
      cases v with
      | seq rows =>
          cases h
          exact spells_tableLiteral hfinite
      | _ => cases h

theorem readLiteral?_of_spells {l : List Char} {lit : Literal} (h : Spells l lit.tokens) :
    readLiteral? l = some lit := by
  have hread := Literal.read?_tokens lit []
  rw [List.append_nil] at hread
  simp [readLiteral?, h.tokens?_eq, hread]

theorem literal_eq_ok_iff {ty : Ty} {v : Value} {text : String} :
    literal ty v = .ok text ↔ firstNonFinite? v = none ∧ shapedLiteral ty v = .ok text := by
  unfold literal
  split
  · next bad hbad => simp [hbad]
  · next hfinite => simp [hfinite]

/-- What is written for a value spells its literal. -/
theorem spells_literal {ty : Ty} {v : Value} {text : String} (h : literal ty v = .ok text) :
    Spells text.toList (Literal.ofValue ty v).tokens := by
  obtain ⟨hfinite, htext⟩ := literal_eq_ok_iff.1 h
  exact spells_shapedLiteral hfinite htext

/-- What is written for a value reads back as its literal. -/
theorem readLiteral?_literal {ty : Ty} {v : Value} {text : String}
    (h : literal ty v = .ok text) : readLiteral? text.toList = some (Literal.ofValue ty v) :=
  readLiteral?_of_spells (spells_literal h)

end GoCell.Go
