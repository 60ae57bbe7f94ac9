import GoCell.Decoding
import GoCell.Proofs.Number.NumeralReader
import GoCell.Proofs.Text.Words
import GoCell.Value.Display

/-!
Single values read back from their display texts. The text of a number holds no blank
and is read as that number, an integer before a float; a text is read as itself only
where it has no blank at its ends.
-/

namespace GoCell

open Text NumberText

/-! ### Numbers -/

/-- Whether a text is that of a number. -/
def IsNumberText (l : List Char) : Prop :=
  ∃ (negative plus : Bool) (t : NumberText), l = signChars negative ++ t.chars plus

theorem IsNumberText.ne_nil {l : List Char} (h : IsNumberText l) : l ≠ [] := by
  obtain ⟨negative, plus, t, rfl⟩ := h
  obtain ⟨c, r, hcons, -⟩ := t.exists_cons_chars negative plus
  simp [hcons]

theorem IsNumberText.not_blank {l : List Char} (h : IsNumberText l) :
    ∀ c ∈ l, isBlank c = false := by
  obtain ⟨negative, plus, t, rfl⟩ := h
  intro c hc
  rcases of_mem_chars hc with hdigit | hmark
  · exact isBlank_of_isDigit hdigit
  · simp only [List.mem_cons, List.not_mem_nil, or_false] at hmark
    rcases hmark with rfl | rfl | rfl | rfl <;> rfl

theorem isNumberText_writeInt (n : Int) : IsNumberText (writeInt n) :=
  ⟨_, _, _, writeInt_eq n⟩

theorem isNumberText_write (layout : FloatLayout) (negative : Bool)
    (index : Fin Binary64.finiteCount) : IsNumberText (layout.write negative index) := by
  obtain ⟨t, -, hchars, -⟩ := layout.exists_writeIndex_eq index
  exact ⟨negative, layout.plusInExponent, t, by rw [write_eq_signChars_append, hchars]⟩

theorem readInt64?_writeInt (n : Int64) : readInt64? (writeInt n.toInt) = some n := by
  simp [readInt64?, readInt?_writeInt, Value.fitsInt64_toInt]

/-- The text of a double is no integer's, and it is read as that double. -/
theorem readFloat?_write (layout : FloatLayout) (negative : Bool)
    (index : Fin Binary64.finiteCount) :
    readInt64? (layout.write negative index) = none ∧
      readFloat? (layout.write negative index) = some (.finite negative index) := by
  obtain ⟨t, hreal, hchars, hvalue⟩ := layout.exists_writeIndex_eq index
  rw [write_eq_signChars_append, hchars]
  constructor
  · rw [readInt64?, readInt?_chars hreal]
  · rw [readFloat?, read?_chars, Option.map_some, hvalue]

theorem readFloat?_eq_some_iff {l : List Char} {x : Binary64} :
    readFloat? l = some x ↔ ∃ n, Numeral.read? l = some n ∧ n.toBinary64 = x ∧ x.isFinite := by
  unfold readFloat?
  constructor
  · intro h
    split at h
    · next negative index hread =>
        obtain ⟨n, hn, heq⟩ := Option.map_eq_some_iff.1 hread
        cases h
        exact ⟨n, hn, heq, rfl⟩
    · cases h
  · rintro ⟨n, hn, rfl, hfinite⟩
    rw [hn, Option.map_some]
    cases hx : n.toBinary64 with
    | finite negative index => rfl
    | infinite negative =>
        rw [hx] at hfinite
        cases hfinite
    | nan =>
        rw [hx] at hfinite
        cases hfinite

/-! ### Values -/

theorem readScalar_int (n : Int64) : readScalar (Value.int n).display.toList = .int n := by
  rw [Value.display, String.toList_ofList, readScalar]
  simp only [trim_of_not_blank (isNumberText_writeInt n.toInt).not_blank, readInt64?_writeInt]

theorem readScalar_float {x : Binary64} (h : x.isFinite) :
    readScalar (Value.float x).display.toList = .float x := by
  cases x with
  | finite negative index =>
      obtain ⟨hint, hfloat⟩ := readFloat?_write Value.floatLayout negative index
      have htrim := trim_of_not_blank (isNumberText_write Value.floatLayout negative index).not_blank
      rw [Value.display, String.toList_ofList, Value.displayFloat, readScalar]
      simp only [htrim, hint, hfloat]
  | infinite negative => cases h
  | nan => cases h

section Reading

variable {l : List Char}

theorem readScalar_eq_int_iff {n : Int64} :
    readScalar l = .int n ↔ readInt64? (trim l) = some n := by
  unfold readScalar
  dsimp only
  split
  · next m hint => rw [hint, Value.int.injEq, Option.some.injEq]
  · next hint => rw [hint]; split <;> simp

theorem readScalar_eq_float_iff {x : Binary64} :
    readScalar l = .float x ↔ readInt64? (trim l) = none ∧ readFloat? (trim l) = some x := by
  unfold readScalar
  dsimp only
  split
  · next m hint => simp [hint]
  · next hint => split <;> simp [*]

/-- A text that is no number's is read as what trimming leaves of it. -/
theorem readScalar_eq_text_iff {s : String} :
    readScalar l = .text s ↔
      s.toList = trim l ∧ readInt64? (trim l) = none ∧ readFloat? (trim l) = none := by
  unfold readScalar
  dsimp only
  split
  · next m hint => simp [hint]
  · next hint =>
      split
      · next hfloat => simp [hfloat]
      · next hfloat =>
          rw [Value.text.injEq, and_iff_left ⟨hint, hfloat⟩]
          exact ⟨fun h => h ▸ String.toList_ofList, fun h => h ▸ String.ofList_toList⟩

/-- A text is read as itself where it has no blanks at its ends and is no number's. -/
theorem readScalar_toList_eq_text_iff {s : String} :
    readScalar s.toList = .text s ↔
      trim s.toList = s.toList ∧ readInt64? s.toList = none ∧ readFloat? s.toList = none := by
  rw [readScalar_eq_text_iff, eq_comm]
  exact and_congr_right fun htrim => by rw [htrim]

/-- Blanks at the end are not read. -/
theorem readScalar_append_of_blank {gap : List Char} (h : ∀ c ∈ gap, isBlank c) :
    readScalar (l ++ gap) = readScalar l := by
  rw [readScalar, trim_append_of_blank h]
  rfl

theorem readScalar_trim : readScalar (trim l) = readScalar l := by
  rw [readScalar, trim_trim]
  rfl

end Reading

namespace Value

/-- Whether a value is a number or a text without blanks at its ends. -/
def IsScalar : Value → Prop
  | .int _ => True
  | .float x => x.isFinite
  | .text s => trim s.toList = s.toList
  | _ => False

/-- Every text is read as such a value. -/
theorem isScalar_readScalar (l : List Char) : (readScalar l).IsScalar := by
  unfold readScalar
  dsimp only
  split
  · exact trivial
  · split
    · next hfloat =>
        obtain ⟨n, -, -, hfinite⟩ := readFloat?_eq_some_iff.1 hfloat
        exact hfinite
    · rw [IsScalar, String.toList_ofList, trim_trim]

/-- Whether a value can be a cell of printed rows: a number, or a text that is read as
itself and holds neither a tab nor LF. -/
def IsCell : Value → Prop
  | .int _ => True
  | .float x => x.isFinite
  | .text s => readScalar s.toList = .text s ∧ '\t' ∉ s.toList ∧ '\n' ∉ s.toList
  | _ => False

instance (v : Value) : Decidable v.IsCell :=
  match v with
  | .int _ => isTrue trivial
  | .float x => inferInstanceAs (Decidable (x.isFinite = true))
  | .text s =>
    decidable_of_iff
      ((trim s.toList = s.toList ∧ readInt64? s.toList = none ∧ readFloat? s.toList = none) ∧
        '\t' ∉ s.toList ∧ '\n' ∉ s.toList)
      (and_congr_left' readScalar_toList_eq_text_iff.symm)
  | .seq _ | .bool _ | .symbol _ | .nil => isFalse id

namespace IsCell

variable {v : Value} (h : v.IsCell)

include h

/-- A cell is a number or a text, and shows it in its display. -/
theorem isNumberText_or : IsNumberText v.display.toList ∨
    ∃ s, v = .text s ∧ trim s.toList = s.toList ∧ '\t' ∉ s.toList ∧ '\n' ∉ s.toList := by
  cases v with
  | int n =>
      rw [display, String.toList_ofList]
      exact .inl (isNumberText_writeInt n.toInt)
  | float x =>
      cases x with
      | finite negative index =>
          rw [display, String.toList_ofList]
          exact .inl (isNumberText_write floatLayout negative index)
      | infinite negative => cases h
      | nan => cases h
  | text s => exact .inr ⟨s, rfl, (readScalar_toList_eq_text_iff.1 h.1).1, h.2⟩
  | _ => cases h

theorem readScalar_display : readScalar v.display.toList = v := by
  cases v with
  | int n => exact readScalar_int n
  | float x => exact readScalar_float h
  | text s => exact h.1
  | _ => cases h

theorem tab_not_mem : '\t' ∉ v.display.toList := by
  rcases h.isNumberText_or with hnumber | ⟨s, rfl, -, htab, -⟩
  · exact fun hmem => absurd (hnumber.not_blank _ hmem) (by decide)
  · exact htab

theorem lf_not_mem : '\n' ∉ v.display.toList := by
  rcases h.isNumberText_or with hnumber | ⟨s, rfl, -, -, hlf⟩
  · exact fun hmem => absurd (hnumber.not_blank _ hmem) (by decide)
  · exact hlf

theorem not_blank_getLast? : ∀ c ∈ v.display.toList.getLast?, isBlank c = false := by
  rcases h.isNumberText_or with hnumber | ⟨s, rfl, htrim, -⟩
  · exact fun c hc => hnumber.not_blank c (List.mem_of_mem_getLast? hc)
  · rw [display, ← htrim]
    exact fun c => isBlank_of_mem_getLast?_trim

/-- Only the empty text leaves a cell blank. -/
theorem blank_iff : (∀ c ∈ v.display.toList, isBlank c) ↔ v = .text "" := by
  constructor
  · intro hblank
    rcases h.isNumberText_or with hnumber | ⟨s, rfl, htrim, -⟩
    · obtain ⟨c, r, hcons⟩ := List.exists_cons_of_ne_nil hnumber.ne_nil
      have hc : c ∈ v.display.toList := by simp [hcons]
      have hnot := hnumber.not_blank c hc
      rw [hblank c hc] at hnot
      cases hnot
    · rw [display] at hblank
      rw [trim_eq_nil_iff.2 hblank] at htrim
      rw [String.toList_eq_nil_iff.1 htrim.symm]
  · rintro rfl
    simp [display]

end IsCell

end Value

end GoCell
