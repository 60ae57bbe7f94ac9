import GoCell.Proofs.Decoding.Scalar
import GoCell.Proofs.Number.DecimalRounding

/-!
What a single value is read as, by the grammar of its text. An integer of 64 bits comes
before a float, so a larger integer becomes the double that it rounds to; a numeral that
rounds to no finite double stays a text, as do the names of infinities. What is read shows
itself in a text that is read as the same value.
-/

namespace GoCell

open Text

variable {l : List Char}

/-! ### Integers -/

theorem Value.toInt_ofInt {m : ℤ} (h : Value.fitsInt64 m) : (Int64.ofInt m).toInt = m := by
  have hmin : Int64.minValue.toInt = -2 ^ 63 := rfl
  have hmax : Int64.maxValue.toInt = 2 ^ 63 - 1 := rfl
  rw [Value.fitsInt64, Bool.and_eq_true, decide_eq_true_eq, decide_eq_true_eq, hmin, hmax] at h
  exact Int64.toInt_ofInt_of_le h.1 (by omega)

theorem readInt64?_eq_some_iff {n : Int64} : readInt64? l = some n ↔ SpellsInt l n.toInt := by
  rw [← readInt?_eq_some_iff, readInt64?]
  constructor
  · intro h
    split at h
    · next m hread =>
        split at h
        · next hfits => rw [← Option.some.inj h, hread, Value.toInt_ofInt hfits]
        · cases h
    · cases h
  · intro hread
    simp only [hread, Value.fitsInt64_toInt, if_true, Int64.ofInt_toInt]

/-- Whether a text denotes an integer of 64 bits. -/
def SpellsInt64 (l : List Char) : Prop := ∃ n : Int64, SpellsInt l n.toInt

theorem readInt64?_eq_none_iff : readInt64? l = none ↔ ¬SpellsInt64 l := by
  rw [Option.eq_none_iff_forall_ne_some, SpellsInt64, not_exists]
  exact forall_congr' fun n => not_congr readInt64?_eq_some_iff

theorem SpellsInt.unique {m n : ℤ} (hm : SpellsInt l m) (hn : SpellsInt l n) : m = n := by
  rw [← readInt?_eq_some_iff] at hm hn
  exact Option.some.inj (hm.symm.trans hn)

/-- An integer other than zero has the sign of its text. -/
theorem eq_decide_signed_lt {negative : Bool} {n : ℕ} (h : signed negative n ≠ 0) :
    negative = decide (signed negative n < 0) := by
  cases negative with
  | false => simp [signed]
  | true =>
      rw [signed, if_pos rfl] at *
      simp only [true_eq_decide_iff]
      omega

/-- The text of an integer is that of a numeral. -/
theorem SpellsInt.exists_spellsNumeral {m : ℤ} (h : SpellsInt l m) (hm : m ≠ 0) :
    ∃ n, SpellsNumeral l n ∧ n.negative = decide (m < 0) ∧ n.magnitude = |(m : ℚ)| := by
  obtain ⟨negative, sign, digits, hsign, hdigits, rfl, rfl⟩ := h
  have habs : |(signed negative (readDigits digits) : ℚ)| = readDigits digits := by
    rw [← Int.cast_abs, Int.abs_eq_natAbs, Binary64.natAbs_signed, Int.cast_natCast]
  refine ⟨⟨negative, digits, [], 0⟩, ⟨sign, digits, [], hsign, .whole hdigits, .absent, ?_⟩,
    eq_decide_signed_lt hm, ?_⟩
  · rw [List.append_nil]
  · rw [habs, Numeral.magnitude_eq]
    simp

/-! ### Floats -/

theorem readFloat?_eq_some_iff_isRounded {x : Binary64} :
    readFloat? l = some x ↔ ∃ n, SpellsNumeral l n ∧ x.IsRounded n.negative n.magnitude := by
  rw [readFloat?_eq_some_iff]
  exact exists_congr fun n => and_congr Numeral.read?_eq_some_iff Numeral.toBinary64_eq_iff

/-- No float is read from a numeral that is out of range, nor from any other text. -/
theorem readFloat?_eq_none_iff :
    readFloat? l = none ↔ ∀ n, SpellsNumeral l n → ¬BinaryFormat.double.Fits n.magnitude := by
  constructor
  · intro hnone n hn hfits
    have hread := readFloat?_eq_some_iff.2 ⟨n, Numeral.read?_eq_some_iff.2 hn, rfl,
      Numeral.isFinite_toBinary64_iff.2 hfits⟩
    rw [hnone] at hread
    cases hread
  · intro h
    rw [Option.eq_none_iff_forall_ne_some]
    intro x hx
    obtain ⟨n, hn, hfits, -⟩ := readFloat?_eq_some_iff_isRounded.1 hx
    exact h n hn hfits

theorem exists_readFloat?_of_fits {n : Numeral} (h : SpellsNumeral l n)
    (hfits : BinaryFormat.double.Fits n.magnitude) :
    ∃ x, readFloat? l = some x ∧ x.IsRounded n.negative n.magnitude := by
  have hfinite := Numeral.isFinite_toBinary64_iff.2 hfits
  exact ⟨n.toBinary64,
    readFloat?_eq_some_iff.2 ⟨n, Numeral.read?_eq_some_iff.2 h, rfl, hfinite⟩,
    Numeral.toBinary64_eq_iff.1 ⟨rfl, hfinite⟩⟩

/-! ### Values -/

/-- An integer that is too large for 64 bits becomes a float. -/
theorem exists_readScalar_of_spellsInt {m : ℤ} (h : SpellsInt (trim l) m)
    (hbeyond : ¬SpellsInt64 (trim l)) (hfits : BinaryFormat.double.Fits |(m : ℚ)|) :
    ∃ x, readScalar l = .float x ∧ x.IsRounded (m < 0) |(m : ℚ)| := by
  have hm : m ≠ 0 := by
    rintro rfl
    exact hbeyond ⟨0, h⟩
  obtain ⟨n, hn, hsign, hmagnitude⟩ := h.exists_spellsNumeral hm
  rw [← hmagnitude] at hfits
  obtain ⟨x, hread, hround⟩ := exists_readFloat?_of_fits hn hfits
  rw [hsign, hmagnitude] at hround
  exact ⟨x, readScalar_eq_float_iff.2 ⟨readInt64?_eq_none_iff.2 hbeyond, hread⟩, hround⟩

/-- What was read shows a text that is read as the same value. -/
theorem readScalar_display_readScalar (l : List Char) :
    readScalar (readScalar l).display.toList = readScalar l := by
  have hscalar := Value.isScalar_readScalar l
  cases hread : readScalar l with
  | int n => exact readScalar_int n
  | float x =>
      rw [hread] at hscalar
      exact readScalar_float hscalar
  | text s =>
      rw [Value.display, (readScalar_eq_text_iff.1 hread).1, readScalar_trim, hread]
  | _ =>
      rw [hread] at hscalar
      cases hscalar

/-- Numbers are read back from their display texts. Any other text is read by its grammar:
as an integer of 64 bits, else as the finite double that a numeral rounds to, else as the
text that trimming leaves. So a larger integer becomes a float; and what was read is read
once more from its own display. -/
theorem readScalar_decides :
    (∀ n : Int64, readScalar (Value.int n).display.toList = .int n) ∧
    (∀ negative index, readScalar (Value.float (.finite negative index)).display.toList =
      .float (.finite negative index)) ∧
    ∀ l : List Char,
      (∀ n, readScalar l = .int n ↔ SpellsInt (trim l) n.toInt) ∧
      (∀ x, readScalar l = .float x ↔ ¬SpellsInt64 (trim l) ∧
        ∃ n, SpellsNumeral (trim l) n ∧ x.IsRounded n.negative n.magnitude) ∧
      (∀ s, readScalar l = .text s ↔ s.toList = trim l ∧ ¬SpellsInt64 (trim l) ∧
        ∀ n, SpellsNumeral (trim l) n → ¬BinaryFormat.double.Fits n.magnitude) ∧
      (∀ m, SpellsInt (trim l) m → ¬SpellsInt64 (trim l) → BinaryFormat.double.Fits |(m : ℚ)| →
        ∃ x, readScalar l = .float x ∧ x.IsRounded (m < 0) |(m : ℚ)|) ∧
      readScalar (readScalar l).display.toList = readScalar l := by
  refine ⟨readScalar_int, fun negative index => readScalar_float rfl, fun l => ⟨?_, ?_, ?_, ?_, ?_⟩⟩
  · intro n
    rw [readScalar_eq_int_iff, readInt64?_eq_some_iff]
  · intro x
    rw [readScalar_eq_float_iff, readInt64?_eq_none_iff, readFloat?_eq_some_iff_isRounded]
  · intro s
    rw [readScalar_eq_text_iff, readInt64?_eq_none_iff, readFloat?_eq_none_iff]
  · exact fun m => exists_readScalar_of_spellsInt
  · exact readScalar_display_readScalar l

example : readScalar " 1e400\n".toList = .text "1e400" := by rfl

end GoCell
