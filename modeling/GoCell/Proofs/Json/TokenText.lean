import GoCell.Json.Printer
import GoCell.Json.Scanner
import GoCell.Proofs.Number.NumeralReader

/-!
Tokens of JSON, written and read back. A string ends at its closing quote whatever
follows it; a number needs a rest that cannot continue it.
-/

namespace GoCell.Json

open NumberText Text

/-! ### Strings -/

theorem hexValue?_hexDigit : ∀ n < 32, hexValue? (hexDigit n) = some (n % 16) := by
  decide

theorem codeUnit_control {n : Nat} (h : n < 32) (r : List Char) :
    codeUnit ('0' :: '0' :: hexDigit (n / 16) :: hexDigit n :: r) = .ok n := by
  have hhigh := hexValue?_hexDigit (n / 16) (by omega)
  have hlow := hexValue?_hexDigit n h
  have hzero : hexValue? '0' = some 0 := rfl
  have hvalue : ((0 * 16 + 0) * 16 + n / 16 % 16) * 16 + n % 16 = n := by omega
  simp only [codeUnit, List.take_succ_cons, List.take_zero, List.mapM_cons, List.mapM_nil, hzero,
    hhigh, hlow, Option.pure_def, Option.bind_eq_bind, Option.bind_some, hvalue]

theorem scanText_escape {e x : Char} (hu : e ≠ 'u') (h : escaped? e = some x) (r : List Char) :
    scanText ('\\' :: e :: r) = (scanText r).map fun (cs, rest) => (x :: cs, rest) := by
  rw [scanText.eq_def]
  simp [hu, h]

/-- One character, with no look at what follows. -/
theorem scanText_writeChar (c : Char) (r : List Char) :
    scanText (writeChar c ++ r) = (scanText r).map fun (cs, rest) => (c :: cs, rest) := by
  unfold writeChar
  split
  · subst c
    exact scanText_escape (by decide) rfl r
  split
  · subst c
    exact scanText_escape (by decide) rfl r
  split
  · subst c
    exact scanText_escape (by decide) rfl r
  split
  · subst c
    exact scanText_escape (by decide) rfl r
  split
  · subst c
    exact scanText_escape (by decide) rfl r
  split
  · subst c
    exact scanText_escape (by decide) rfl r
  split
  · subst c
    exact scanText_escape (by decide) rfl r
  split
  · next hcontrol =>
      have hunit := codeUnit_control hcontrol r
      have hhigh : isHighSurrogate c.toNat = false := by
        simp [isHighSurrogate]
        omega
      have hlow : isLowSurrogate c.toNat = false := by
        simp [isLowSurrogate]
        omega
      rw [scanText.eq_def]
      simp [hunit, hhigh, hlow, Char.ofNat_toNat]
  · next hquote hbackslash _ _ _ _ _ hcontrol =>
      rw [List.singleton_append, scanText.eq_def]
      simp [hquote, hbackslash, hcontrol]

/-- The content of a string, its closing quote, and whatever follows. -/
theorem scanText_flatMap_writeChar (l r : List Char) :
    scanText (l.flatMap writeChar ++ '"' :: r) = .ok (l, r) := by
  induction l with
  | nil =>
      rw [List.flatMap_nil, List.nil_append, scanText.eq_def]
      rfl
  | cons c l ih =>
      rw [List.flatMap_cons, List.append_assoc, scanText_writeChar, ih]
      rfl

/-! ### Numbers -/

/-- Whether a text cannot continue a number. -/
def EndsNumber (rest : List Char) : Prop :=
  ∀ c ∈ rest.head?, c.isDigit = false ∧ c ≠ '.' ∧ c ≠ 'e' ∧ c ≠ 'E'

theorem endsNumber_nil : EndsNumber [] := by simp [EndsNumber]

theorem scanDigits_append (atEnd : Fault) {ds r : List Char} (hne : ds ≠ [])
    (hdigits : ∀ c ∈ ds, c.isDigit) (hr : ∀ c ∈ r.head?, c.isDigit = false) :
    scanDigits atEnd (ds ++ r) = .ok (ds, r) := by
  obtain ⟨c, ds, rfl⟩ := List.exists_cons_of_ne_nil hne
  rw [scanDigits, takeWhile_append_of_head hdigits hr, dropWhile_append_of_head hdigits hr]

/-- The fraction as it is read: without a point there is none. -/
def fraction? (ds : List Char) : Option (List Char) := if ds = [] then none else some ds

theorem scanFraction_append (atEnd : Fault) {ds r : List Char} (hdigits : ∀ c ∈ ds, c.isDigit)
    (hr : ∀ c ∈ r.head?, c.isDigit = false ∧ c ≠ '.') :
    scanFraction atEnd (pointChars ds ++ r) = .ok (fraction? ds, r) := by
  by_cases hne : ds = []
  · subst hne
    cases r with
    | nil => rfl
    | cons c r => simp [pointChars, scanFraction, fraction?, (hr c rfl).2]
  · have hscan := scanDigits_append atEnd hne hdigits fun c hc => (hr c hc).1
    simp [pointChars_of_ne_nil hne, scanFraction, hscan, fraction?, hne, Except.map]

theorem scanExponent_append (atEnd : Fault) (plus : Bool) (e : Option Int) {r : List Char}
    (hr : EndsNumber r) : scanExponent atEnd (exponentChars plus e ++ r) = .ok (e, r) := by
  cases e with
  | none =>
      cases r with
      | nil => rfl
      | cons c r =>
          obtain ⟨-, -, hlower, hupper⟩ := hr c rfl
          simp [exponentChars, scanExponent, hlower, hupper]
  | some e =>
      have hdigits := scanDigits_append atEnd (writeNat_ne_nil e.natAbs)
        (fun _ => isDigit_of_mem_writeNat) fun c hc => (hr c hc).1
      have hvalue : (if e < 0 then -(e.natAbs : Int) else e.natAbs) = e := by
        split <;> omega
      rw [exponentChars, List.cons_append, scanExponent, if_pos (.inl rfl), takeSign_signed]
      simp only [hdigits, bind, Except.bind, readDigits_writeNat, decide_eq_true_eq, hvalue]

theorem head?_exponentChars_append (plus : Bool) (e : Option Int) {r : List Char}
    (hr : EndsNumber r) :
    ∀ c ∈ (exponentChars plus e ++ r).head?, c.isDigit = false ∧ c ≠ '.' := by
  cases e with
  | none => exact fun c hc => ⟨(hr c hc).1, (hr c hc).2.1⟩
  | some e => simp [exponentChars]

theorem head?_pointChars_append (ds : List Char) {r : List Char}
    (hr : ∀ c ∈ r.head?, c.isDigit = false) :
    ∀ c ∈ (pointChars ds ++ r).head?, c.isDigit = false := by
  by_cases hne : ds = []
  · subst hne
    exact hr
  · simp [pointChars_of_ne_nil hne]

end GoCell.Json

namespace GoCell.NumberText

open Json

/-- The literal that a text with this sign spells. -/
def literal (negative : Bool) (t : NumberText) : Literal :=
  ⟨negative, t.whole, fraction? t.fraction, t.exponent⟩

theorem scanNumber_append (atEnd : Fault) (negative plus : Bool) (t : NumberText)
    {rest : List Char} (hrest : EndsNumber rest) :
    scanNumber atEnd (signChars negative ++ t.chars plus ++ rest) =
      .ok (t.literal negative, rest) := by
  obtain ⟨hwhole, hfraction⟩ := List.forall_mem_append.1 t.isDigit_of_mem
  have hexponent := head?_exponentChars_append plus t.exponent hrest
  have hpoint := head?_pointChars_append t.fraction fun c hc => (hexponent c hc).1
  have hsplit : t.chars plus ++ rest =
      t.whole ++ (pointChars t.fraction ++ (exponentChars plus t.exponent ++ rest)) := by
    simp [chars]
  have hlength : ¬(t.whole.head? = some '0' ∧ 1 < t.whole.length) := by
    rintro ⟨hzero, hlong⟩
    rw [t.whole_eq_of_head? hzero] at hlong
    exact absurd hlong (by decide)
  have hparts := scanDigits_append atEnd t.whole_ne_nil hwhole hpoint
  rw [List.append_assoc, hsplit]
  -- the sign is matched before anything is read
  cases negative with
  | true =>
      change scanNumber atEnd ('-' :: (t.whole ++ _)) = _
      rw [scanNumber]
      simp only [hparts, hlength, scanFraction_append atEnd hfraction hexponent,
        scanExponent_append atEnd plus t.exponent hrest, bind, Except.bind, if_false]
      rfl
  | false =>
      change scanNumber atEnd (t.whole ++ _) = _
      rw [scanNumber.eq_2]
      · simp only [hparts, hlength, scanFraction_append atEnd hfraction hexponent,
          scanExponent_append atEnd plus t.exponent hrest, bind, Except.bind, if_false]
        rfl
      · intro r heq
        obtain ⟨c, ds, hcons⟩ := List.exists_cons_of_ne_nil t.whole_ne_nil
        have hdigit : c.isDigit := hwhole c (by simp [hcons])
        rw [hcons] at heq
        rw [(List.cons.inj heq).1] at hdigit
        exact absurd hdigit (by decide)

/-- A literal without fraction and exponent is an integer where 64 bits hold it. -/
theorem toJson_literal_ofNat {n : Int} (hlow : -2 ^ 63 ≤ n) (hhigh : n < 2 ^ 64) :
    ((ofNat n.natAbs).literal (n < 0)).toJson = .ok (.integer n) := by
  have hpow : Nat.pow 2 63 = 2 ^ 63 ∧ Nat.pow 2 64 = 2 ^ 64 := ⟨rfl, rfl⟩
  simp only [Literal.toJson, literal, ofNat, fraction?, readDigits_writeNat, if_true,
    Option.isNone_none, Bool.and_self, Bool.true_and]
  by_cases hn : n < 0
  · have hpos : 0 < n.natAbs ∧ n.natAbs ≤ Nat.pow 2 63 := by omega
    have hvalue : -(n.natAbs : Int) = n := by omega
    rw [if_neg (by simp [hn]), if_pos (by simp only [hn, hpos]; rfl), hvalue]
  · have hsmall : n.natAbs < Nat.pow 2 64 := by omega
    have hvalue : (n.natAbs : Int) = n := by omega
    rw [if_pos (by simp only [hn, hsmall]; rfl), hvalue]

theorem getD_fraction? (ds : List Char) : (fraction? ds).getD [] = ds := by
  by_cases hds : ds = []
  · simp [fraction?, hds]
  · simp [fraction?, hds]

/-- Every other literal is the double that it denotes. -/
theorem toJson_literal_of_not_isInteger {t : NumberText} {negative : Bool}
    {index : Fin Binary64.finiteCount} (hreal : ¬t.IsInteger)
    (hvalue : (t.numeral negative).toBinary64 = .finite negative index) :
    (t.literal negative).toJson = .ok (.real (.finite negative index)) := by
  have hintegral : ((fraction? t.fraction).isNone && t.exponent.isNone) = false := by
    rw [Bool.eq_false_iff]
    intro h
    simp only [Bool.and_eq_true, Option.isNone_iff_eq_none, fraction?, ite_eq_left_iff,
      reduceCtorEq, imp_false, not_not] at h
    exact hreal h
  have hnumeral : (⟨negative, t.whole, t.fraction, t.exponent.getD 0⟩ : Numeral).toBinary64 =
      .finite negative index := hvalue
  simp only [Literal.toJson, literal, hintegral, Bool.false_and, getD_fraction?, hnumeral]
  rfl

end GoCell.NumberText

namespace GoCell.Json

open NumberText

/-- Whether a text is that of a number: it starts as one, and it is read back before
every rest that ends it. -/
structure SpellsNumber (l : List Char) (j : Json) : Prop where
  starts : ∃ c r, l = c :: r ∧ (c = '-' ∨ c.isDigit)
  reads : ∀ rest, EndsNumber rest →
    ∃ n, scanNumber .endInValue (l ++ rest) = .ok (n, rest) ∧ n.toJson = .ok j

theorem spellsNumber_chars {t : NumberText} {negative plus : Bool} {j : Json}
    (h : (t.literal negative).toJson = .ok j) :
    SpellsNumber (signChars negative ++ t.chars plus) j where
  starts := t.exists_cons_chars negative plus
  reads _ hrest := ⟨t.literal negative, t.scanNumber_append .endInValue negative plus hrest, h⟩

theorem spellsNumber_writeInt {n : Int} (hlow : -2 ^ 63 ≤ n) (hhigh : n < 2 ^ 64) :
    SpellsNumber (writeInt n) (.integer n) := by
  rw [writeInt_eq]
  exact spellsNumber_chars (toJson_literal_ofNat hlow hhigh)

theorem spellsNumber_writeReal (negative : Bool) (index : Fin Binary64.finiteCount) :
    SpellsNumber (writeReal (.finite negative index)) (.real (.finite negative index)) := by
  obtain ⟨t, hreal, hchars, hvalue⟩ := floatLayout.exists_writeIndex_eq index
  have hwrite : writeReal (.finite negative index) =
      signChars negative ++ t.chars floatLayout.plusInExponent := by
    rw [← hchars]
    exact write_eq_signChars_append floatLayout negative index
  rw [hwrite]
  exact spellsNumber_chars (toJson_literal_of_not_isInteger hreal (hvalue negative))

end GoCell.Json
