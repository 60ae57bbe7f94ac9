import GoCell.Proofs.Number.NumberText
import GoCell.Proofs.Number.NumeralGrammar

/-!
Numbers read back from their texts. The text of an integer is read as that integer.
The text of a magnitude with a fraction or an exponent is no integer's, and it is read
as the numeral with its parts.
-/

namespace GoCell

/-! ### Integers -/

theorem isDigits_writeNat (n : Nat) : isDigits (writeNat n) :=
  isDigits_iff.2 ⟨writeNat_ne_nil n, fun _ => isDigit_of_mem_writeNat⟩

/-- An integer is written with its sign, or with a plus where one is asked for. -/
theorem exists_isSign_writeInt (plus : Bool) (e : Int) :
    ∃ sign, IsSign (e < 0) sign ∧
      (if plus && 0 ≤ e then ['+'] else []) ++ writeInt e = sign ++ writeNat e.natAbs := by
  by_cases he : e < 0
  · have hle : ¬0 ≤ e := by omega
    exact ⟨['-'], by simpa [he] using .minus, by simp [writeInt, he, hle]⟩
  · have hle : 0 ≤ e := by omega
    cases plus with
    | true => exact ⟨['+'], by simpa [he] using .plus, by simp [writeInt, he, hle]⟩
    | false => exact ⟨[], by simpa [he] using .absent, by simp [writeInt, he]⟩

/-- A sign is taken off whether it is written or not. -/
theorem takeSign_signed (plus : Bool) (e : Int) (r : List Char) :
    takeSign ((if plus && 0 ≤ e then ['+'] else []) ++ writeInt e ++ r) =
      (decide (e < 0), writeNat e.natAbs ++ r) := by
  obtain ⟨sign, hsign, htext⟩ := exists_isSign_writeInt plus e
  rw [htext, List.append_assoc]
  exact takeSign_append_of_isDigits hsign (isDigits_writeNat _) r

theorem spellsInt_signed (plus : Bool) (e : Int) :
    SpellsInt ((if plus && 0 ≤ e then ['+'] else []) ++ writeInt e) e := by
  obtain ⟨sign, hsign, htext⟩ := exists_isSign_writeInt plus e
  refine ⟨_, sign, _, hsign, isDigits_writeNat _, htext, ?_⟩
  rw [readDigits_writeNat, signed_natAbs]

theorem readInt?_writeInt (n : Int) : readInt? (writeInt n) = some n :=
  readInt?_eq_some_iff.2 (spellsInt_signed false n)

namespace NumberText

/-- The sign of a number. -/
def signChars (negative : Bool) : List Char := if negative then ['-'] else []

theorem isSign_signChars (negative : Bool) : IsSign negative (signChars negative) := by
  cases negative with
  | true => exact .minus
  | false => exact .absent

theorem writeInt_eq (n : Int) :
    writeInt n = signChars (n < 0) ++ (NumberText.ofNat n.natAbs).chars true := by
  by_cases hn : n < 0
  · simp [writeInt, signChars, hn]
  · simp [writeInt, signChars, hn]

theorem write_eq_signChars_append (layout : FloatLayout) (negative : Bool) (index : Nat) :
    layout.write negative index = signChars negative ++ layout.writeIndex index := by
  cases negative <;> rfl

/-- A number starts with a minus sign or a digit, which tells it from other values. -/
theorem exists_cons_chars (negative plus : Bool) (t : NumberText) :
    ∃ c r, signChars negative ++ t.chars plus = c :: r ∧ (c = '-' ∨ c.isDigit) := by
  cases negative with
  | true => exact ⟨'-', t.chars plus, rfl, .inl rfl⟩
  | false =>
      obtain ⟨c, ds, hwhole⟩ := List.exists_cons_of_ne_nil t.whole_ne_nil
      have hdigit : c.isDigit := t.isDigit_of_mem c (by simp [hwhole])
      exact ⟨c, _, by rw [chars, hwhole]; rfl, .inr hdigit⟩

/-! ### Numerals -/

theorem isDigits_whole (t : NumberText) : isDigits t.whole :=
  isDigits_iff.2 ⟨t.whole_ne_nil, (List.forall_mem_append.1 t.isDigit_of_mem).1⟩

theorem isMantissa_chars (t : NumberText) :
    IsMantissa (t.whole ++ pointChars t.fraction) t.whole t.fraction := by
  by_cases hf : t.fraction = []
  · rw [hf, pointChars, List.append_nil]
    exact .whole t.isDigits_whole
  · rw [pointChars_of_ne_nil hf]
    exact .fraction t.isDigits_whole (List.forall_mem_append.1 t.isDigit_of_mem).2

theorem spellsExponent_exponentChars (plus : Bool) (e : Option Int) :
    SpellsExponent (exponentChars plus e) (e.getD 0) := by
  cases e with
  | none => exact .absent
  | some e => exact .present (.inl rfl) (spellsInt_signed plus e)

theorem takeSign_chars (negative plus : Bool) (t : NumberText) :
    takeSign (signChars negative ++ t.chars plus) = (negative, t.chars plus) :=
  takeSign_append_of_isDigits (isSign_signChars negative) t.isDigits_whole _

/-- A point or an exponent is no digit. -/
theorem readInt?_chars {t : NumberText} (h : ¬t.IsInteger) (negative plus : Bool) :
    readInt? (signChars negative ++ t.chars plus) = none := by
  have hmark : ∃ c ∈ t.chars plus, c.isDigit = false := by
    by_cases hfraction : t.fraction = []
    · obtain ⟨e, he⟩ := Option.ne_none_iff_exists'.1 fun hnone => h ⟨hfraction, hnone⟩
      exact ⟨'e', by simp [chars, he, exponentChars], rfl⟩
    · exact ⟨'.', by simp [chars, pointChars_of_ne_nil hfraction], rfl⟩
  obtain ⟨c, hc, hdigit⟩ := hmark
  have hdigits : isDigits (t.chars plus) = false := by
    rw [isDigits, Bool.and_eq_false_iff, List.all_eq_false]
    exact .inr ⟨c, hc, by simp [hdigit]⟩
  simp [readInt?, takeSign_chars, hdigits]

theorem read?_chars (negative plus : Bool) (t : NumberText) :
    Numeral.read? (signChars negative ++ t.chars plus) = some (t.numeral negative) :=
  Numeral.read?_eq_some_iff.2 ⟨signChars negative, t.whole ++ pointChars t.fraction,
    exponentChars plus t.exponent, isSign_signChars negative, t.isMantissa_chars,
    spellsExponent_exponentChars plus t.exponent, by rw [chars, List.append_assoc]⟩

/-! ### Characters -/

theorem of_mem_exponentChars {plus : Bool} {e : Option Int} {c : Char}
    (h : c ∈ exponentChars plus e) : c.isDigit ∨ c ∈ ['-', '+', '.', 'e'] := by
  cases e with
  | none => cases h
  | some e =>
      rcases List.mem_cons.1 h with rfl | h
      · simp
      rcases List.mem_append.1 h with h | h
      · split at h
        · simp_all
        · cases h
      · unfold writeInt at h
        split at h
        · rcases List.mem_cons.1 h with rfl | h
          · simp
          · exact .inl (isDigit_of_mem_writeNat h)
        · exact .inl (isDigit_of_mem_writeNat h)

/-- The text of a number is made of digits and four other characters. -/
theorem of_mem_chars {negative plus : Bool} {t : NumberText} {c : Char}
    (h : c ∈ signChars negative ++ t.chars plus) : c.isDigit ∨ c ∈ ['-', '+', '.', 'e'] := by
  rcases List.mem_append.1 h with h | h
  · cases negative with
    | true => simp_all [signChars]
    | false => cases h
  rcases List.mem_append.1 h with h | h
  · exact .inl (t.isDigit_of_mem c (List.mem_append_left _ h))
  rcases List.mem_append.1 h with h | h
  · by_cases hf : t.fraction = []
    · simp [hf, pointChars] at h
    · rw [pointChars_of_ne_nil hf] at h
      rcases List.mem_cons.1 h with rfl | h
      · simp
      · exact .inl (t.isDigit_of_mem c (List.mem_append_right _ h))
  · exact of_mem_exponentChars h

end NumberText

end GoCell
