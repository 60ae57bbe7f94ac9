import GoCell.Proofs.Go.Declaration
import GoCell.Proofs.Go.LiteralText
import GoCell.Proofs.Number.Digits
import GoCell.Proofs.Text.Line

/-!
A declaration is a single line. Names and numbers hold no line break, and a string
literal has an escape in its place, so whatever the value is, the declarations of a
program can be told apart by their lines.
-/

namespace GoCell.Go

open Text (OneLine oneLine_flatMap oneLine_intercalate)

theorem isLineBreak_of_isDigit {c : Char} (h : c.isDigit) : Text.isLineBreak c = false := by
  by_contra hbreak
  rcases Text.isLineBreak_iff.1 (by simpa using hbreak) with rfl | rfl <;>
    exact absurd h (by decide)

theorem isLineBreak_of_isIdentChar {c : Char} (h : isIdentChar c) :
    Text.isLineBreak c = false := by
  by_contra hbreak
  rcases Text.isLineBreak_iff.1 (by simpa using hbreak) with rfl | rfl <;>
    exact absurd h (by decide)

theorem oneLine_writeNat (n : Nat) : OneLine (writeNat n) := fun _ hc =>
  isLineBreak_of_isDigit (isDigit_of_mem_writeNat hc)

theorem oneLine_writeInt (n : Int) : OneLine (writeInt n) := by
  rw [writeInt]
  split
  · exact Text.oneLine_cons.2 ⟨by decide, oneLine_writeNat _⟩
  · exact oneLine_writeNat _

theorem oneLine_floatLiteral {x : Binary64} (h : x.isFinite) : OneLine (floatLiteral x).toList := by
  cases x with
  | finite negative index =>
      have hplaces (n : Nat) : OneLine (writePlaces floatPlaces n) := by
        rw [writePlaces, Text.oneLine_append, Text.oneLine_cons]
        exact ⟨oneLine_writeNat _, by decide, fun _ hc =>
          isLineBreak_of_isDigit (isDigit_of_mem_padNat hc)⟩
      rw [floatLiteral, String.toList_ofList, Binary64.writeFixed]
      split
      · exact Text.oneLine_cons.2 ⟨by decide, hplaces _⟩
      · exact hplaces _
  | infinite negative => simp [Binary64.isFinite] at h
  | nan => simp [Binary64.isFinite] at h

theorem isLineBreak_digitChar : ∀ n < 16, Text.isLineBreak (Nat.digitChar n) = false := by
  decide

theorem oneLine_quoteChar (c : Char) : OneLine (quoteChar c) := by
  unfold quoteChar
  split_ifs with h₁ h₂ h₃ h₄ h₅ h₆
  all_goals try simp only [Text.oneLine_cons, Text.oneLine_nil]; decide
  · simp only [hexDigits, List.cons_append, List.nil_append, Text.oneLine_cons]
    refine ⟨by decide, by decide, ?_, ?_, Text.oneLine_nil⟩
    · exact isLineBreak_digitChar _ (Nat.mod_lt _ (by decide))
    · exact isLineBreak_digitChar _ (Nat.mod_lt _ (by decide))
  · exact Text.oneLine_cons.2 ⟨by simp [Text.isLineBreak, h₃, h₄], Text.oneLine_nil⟩

theorem oneLine_quote (s : String) : OneLine (quote s).toList := by
  rw [quote, String.toList_ofList, quoteChars, Text.oneLine_cons, Text.oneLine_append]
  exact ⟨by decide, oneLine_flatMap fun c _ => oneLine_quoteChar c,
    Text.oneLine_cons.2 ⟨by decide, Text.oneLine_nil⟩⟩

theorem oneLine_scalarLiteral (base : Base) {v : Value} (h : firstNonFinite? v = none) :
    OneLine (scalarLiteral base v).toList := by
  fun_cases scalarLiteral base v with
  | case1 n => simpa using oneLine_writeInt n.toInt
  | case2 n => exact oneLine_floatLiteral (Binary64.isFinite_ofInt (natAbs_toInt_lt n))
  | case3 x => exact oneLine_floatLiteral (by simpa [firstNonFinite?] using h)
  | case4 s => exact oneLine_quote s
  | case5 base v => exact oneLine_quote v.display

/-- Texts on one line are joined to a text on one line. -/
theorem oneLine_join {α : Type} {sep : String} {items : List α} {write : α → String}
    (hsep : OneLine sep.toList) (h : ∀ v ∈ items, OneLine (write v).toList) :
    OneLine (sep.intercalate (items.map write)).toList := by
  rw [String.toList_intercalate]
  refine oneLine_intercalate hsep fun l hl => ?_
  simp only [List.map_map, List.mem_map, Function.comp_apply] at hl
  obtain ⟨v, hv, rfl⟩ := hl
  exact h v hv

theorem oneLine_composite {α : Type} (type : String) {items : List α} {write : α → String}
    (htype : OneLine type.toList) (h : ∀ v ∈ items, OneLine (write v).toList) :
    OneLine (composite type (items.map write)).toList := by
  have hitems : OneLine (",".intercalate (items.map write)).toList := oneLine_join (by decide) h
  simp only [composite, String.toList_append, Text.oneLine_append]
  exact ⟨⟨⟨htype, by decide⟩, hitems⟩, by decide⟩

theorem oneLine_rowLiteral {row : Value} (h : firstNonFinite? row = none) :
    OneLine (rowLiteral row).toList := by
  have hcells (cells : List Value) (hfinite : ∀ cell ∈ cells, firstNonFinite? cell = none) :
      OneLine (composite "[]string" (cells.map cellLiteral)).toList :=
    oneLine_composite _ (by decide) fun cell hcell => oneLine_scalarLiteral _ (hfinite cell hcell)
  cases row with
  | seq cells => exact hcells cells fun cell hcell => firstNonFinite?_eq_none_of_mem h hcell
  | _ => exact hcells [_] (by simpa using h)

theorem oneLine_tableLiteral {rows : List Value} (h : firstNonFinite? (.seq rows) = none) :
    OneLine (tableLiteral rows).toList := by
  have hrows : OneLine (", ".intercalate (rows.map rowLiteral)).toList :=
    oneLine_join (by decide) fun row hrow =>
      oneLine_rowLiteral (firstNonFinite?_eq_none_of_mem h hrow)
  simp only [tableLiteral, String.toList_append, Text.oneLine_append]
  exact ⟨⟨by decide, hrows⟩, by decide⟩

theorem oneLine_base (base : Base) : OneLine base.name.toList := by
  cases base <;> decide

theorem oneLine_ty (ty : Ty) : OneLine ty.text.toList := by
  have hbrackets : OneLine ty.shape.brackets.toList := by
    cases ty.shape <;> decide
  rw [Ty.text, String.toList_append, Text.oneLine_append]
  exact ⟨hbrackets, oneLine_base ty.base⟩

theorem oneLine_shapedLiteral {ty : Ty} {v : Value} {text : String}
    (hfinite : firstNonFinite? v = none) (h : shapedLiteral ty v = .ok text) :
    OneLine text.toList := by
  obtain ⟨base, shape⟩ := ty
  cases shape with
  | scalar =>
      cases v with
      | seq items => cases h
      | _ =>
          cases h
          exact oneLine_scalarLiteral base hfinite
  | vector =>
      cases v with
      | seq items =>
          cases h
          refine oneLine_composite _ ?_ fun v hv =>
            oneLine_scalarLiteral base (firstNonFinite?_eq_none_of_mem hfinite hv)
          rw [String.toList_append, Text.oneLine_append]
          exact ⟨by decide, oneLine_base base⟩
      | _ => cases h
  | table =>
      cases v with
      | seq rows =>
          cases h
          exact oneLine_tableLiteral hfinite
      | _ => cases h

theorem oneLine_literal {ty : Ty} {v : Value} {text : String} (h : literal ty v = .ok text) :
    OneLine text.toList := by
  obtain ⟨hfinite, htext⟩ := literal_eq_ok_iff.1 h
  exact oneLine_shapedLiteral hfinite htext

theorem isIdentChar_of_mem_shape {l : List Char} (h : isIdentShape l) {c : Char} (hc : c ∈ l) :
    isIdentChar c := by
  cases l with
  | nil => cases hc
  | cons d r =>
      rw [isIdentShape, Bool.and_eq_true, List.all_eq_true] at h
      rcases List.mem_cons.1 hc with rfl | hc
      · rw [isIdentChar, h.1, Bool.true_or]
      · exact h.2 c hc

theorem isIdentChar_of_mem {name : String} (h : isIdentifier name) {c : Char}
    (hc : c ∈ name.toList) : isIdentChar c := by
  rw [isIdentifier, Bool.and_eq_true] at h
  exact isIdentChar_of_mem_shape h.1 hc

theorem oneLine_of_isIdentifier {name : String} (h : isIdentifier name) :
    OneLine name.toList := fun _ hc => isLineBreak_of_isIdentChar (isIdentChar_of_mem h hc)

/-- Whatever a value is, its declaration is a single line. -/
theorem oneLine_declareAs {ty : Ty} {b : Binding} {stmt : String} (h : declareAs ty b = .ok stmt) :
    OneLine stmt.toList := by
  obtain ⟨hname, text, htext, rfl⟩ := declareAs_eq_ok_iff.1 h
  simp only [String.toList_append, Text.oneLine_append]
  exact ⟨⟨⟨⟨⟨by decide, oneLine_of_isIdentifier hname⟩, by decide⟩, oneLine_ty ty⟩, by decide⟩,
    oneLine_literal htext⟩

end GoCell.Go
