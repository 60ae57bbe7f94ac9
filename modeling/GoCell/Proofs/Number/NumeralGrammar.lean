import GoCell.Number.Numeral
import GoCell.Proofs.Number.FixedPoint
import GoCell.Proofs.Text.Piece
import Mathlib.Data.List.TakeWhile

/-!
The texts of integers and decimal numerals, as a grammar apart from their readers. A
numeral is `[+-]? (digits [. digits*] | . digits) ([eE] [+-]? digits)?`. Main results: the
readers accept exactly these texts, and what they read is what stands there.
-/

namespace GoCell

open Text (takeWhile_append_of_head dropWhile_append_of_head)

/-! ### The grammar -/

/-- A sign, which may be left out: whether it is a minus, and its text. -/
inductive IsSign : Bool → List Char → Prop
  | absent : IsSign false []
  | plus : IsSign false ['+']
  | minus : IsSign true ['-']

/-- Whether a text is an optional sign and digits that denote an integer. -/
def SpellsInt (l : List Char) (n : ℤ) : Prop :=
  ∃ negative sign digits, IsSign negative sign ∧ isDigits digits ∧ l = sign ++ digits ∧
    n = signed negative (readDigits digits)

/-- The text of the digits of a numeral, with those before its point and those after it. -/
inductive IsMantissa : List Char → List Char → List Char → Prop
  | whole {ds : List Char} (h : isDigits ds) : IsMantissa ds ds []
  | fraction {ds fs : List Char} (hds : isDigits ds) (hfs : ∀ c ∈ fs, c.isDigit) :
    IsMantissa (ds ++ '.' :: fs) ds fs
  | point {fs : List Char} (h : isDigits fs) : IsMantissa ('.' :: fs) [] fs

/-- The text of an exponent, which may be left out, and what it denotes. -/
inductive SpellsExponent : List Char → ℤ → Prop
  | absent : SpellsExponent [] 0
  | present {mark : Char} {l : List Char} {e : ℤ} (hmark : mark = 'e' ∨ mark = 'E')
    (h : SpellsInt l e) : SpellsExponent (mark :: l) e

/-- Whether a text is that of a numeral with these parts. -/
def SpellsNumeral (l : List Char) (n : Numeral) : Prop :=
  ∃ sign mantissa exponent, IsSign n.negative sign ∧ IsMantissa mantissa n.whole n.fraction ∧
    SpellsExponent exponent n.exponent ∧ l = sign ++ (mantissa ++ exponent)

/-! ### Signs and digits -/

theorem isDigits_iff {ds : List Char} : isDigits ds ↔ ds ≠ [] ∧ ∀ c ∈ ds, c.isDigit := by
  simp [isDigits]

theorem isDigits_head? {ds : List Char} (h : isDigits ds) (r : List Char) :
    ∃ c, (ds ++ r).head? = some c ∧ c.isDigit := by
  obtain ⟨hne, hdigits⟩ := isDigits_iff.1 h
  obtain ⟨c, ds, rfl⟩ := List.exists_cons_of_ne_nil hne
  exact ⟨c, rfl, hdigits c List.mem_cons_self⟩

/-- A sign is taken off what does not start with one. -/
theorem takeSign_append {negative : Bool} {sign r : List Char} (hsign : IsSign negative sign)
    (hr : ∀ c ∈ r.head?, c ≠ '+' ∧ c ≠ '-') : takeSign (sign ++ r) = (negative, r) := by
  cases hsign with
  | absent =>
      rw [List.nil_append]
      unfold takeSign
      split
      · exact absurd rfl (hr '-' rfl).2
      · exact absurd rfl (hr '+' rfl).1
      · rfl
  | plus => rfl
  | minus => rfl

theorem ne_sign_of_isDigit {c : Char} (h : c.isDigit) : c ≠ '+' ∧ c ≠ '-' := by
  constructor
  · rintro rfl
    exact absurd h (by decide)
  · rintro rfl
    exact absurd h (by decide)

theorem takeSign_append_of_isDigits {negative : Bool} {sign ds : List Char}
    (hsign : IsSign negative sign) (h : isDigits ds) (r : List Char) :
    takeSign (sign ++ (ds ++ r)) = (negative, ds ++ r) := by
  obtain ⟨c, hc, hdigit⟩ := isDigits_head? h r
  apply takeSign_append hsign
  intro d hd
  rw [hc] at hd
  exact Option.some.inj hd ▸ ne_sign_of_isDigit hdigit

theorem exists_takeSign_eq (l : List Char) :
    ∃ negative sign r, IsSign negative sign ∧ l = sign ++ r ∧ takeSign l = (negative, r) := by
  unfold takeSign
  split
  · exact ⟨true, ['-'], _, .minus, rfl, rfl⟩
  · exact ⟨false, ['+'], _, .plus, rfl, rfl⟩
  · exact ⟨false, [], _, .absent, rfl, rfl⟩

/-! ### Integers and exponents -/

theorem readInt?_eq_some_iff {l : List Char} {n : ℤ} : readInt? l = some n ↔ SpellsInt l n := by
  constructor
  · intro h
    obtain ⟨negative, sign, r, hsign, hl, htake⟩ := exists_takeSign_eq l
    rw [readInt?, htake] at h
    dsimp only at h
    split at h
    · next hdigits => exact ⟨negative, sign, r, hsign, hdigits, hl, (Option.some.inj h).symm⟩
    · cases h
  · rintro ⟨negative, sign, digits, hsign, hdigits, rfl, rfl⟩
    have htake := takeSign_append_of_isDigits hsign hdigits []
    rw [List.append_nil] at htake
    rw [readInt?, htake]
    exact if_pos hdigits

theorem readExponent?_eq_some_iff {l : List Char} {e : ℤ} :
    readExponent? l = some e ↔ SpellsExponent l e := by
  constructor
  · intro h
    unfold readExponent? at h
    split at h
    · exact Option.some.inj h ▸ .absent
    · split at h
      · next hmark => exact .present hmark (readInt?_eq_some_iff.1 h)
      · cases h
  · intro h
    cases h with
    | absent => rfl
    | present hmark h => exact (if_pos hmark).trans (readInt?_eq_some_iff.2 h)

/-- An exponent starts with its mark. -/
theorem SpellsExponent.head? {l : List Char} {e : ℤ} (h : SpellsExponent l e) :
    ∀ c ∈ l.head?, c.isDigit = false ∧ c ≠ '.' := by
  cases h with
  | absent => simp
  | present hmark _ => rcases hmark with rfl | rfl <;> simp

/-! ### Numerals -/

/-- The digits of a numeral before its point and after it, and what follows them. -/
def readMantissa (body : List Char) : List Char × List Char × List Char :=
  (body.takeWhile Char.isDigit, match body.dropWhile Char.isDigit with
    | '.' :: r => (r.takeWhile Char.isDigit, r.dropWhile Char.isDigit)
    | r => ([], r))

theorem read?_eq {l body : List Char} {negative : Bool} (htake : takeSign l = (negative, body)) :
    Numeral.read? l =
      if (readMantissa body).1 = [] ∧ (readMantissa body).2.1 = [] then none
      else (readExponent? (readMantissa body).2.2).map fun exponent =>
        ⟨negative, (readMantissa body).1, (readMantissa body).2.1, exponent⟩ := by
  simp only [← List.isEmpty_iff, ← Bool.and_eq_true]
  rw [Numeral.read?, htake]
  rfl

theorem readMantissa_append {mantissa whole fraction r : List Char}
    (h : IsMantissa mantissa whole fraction) (hr : ∀ c ∈ r.head?, c.isDigit = false ∧ c ≠ '.') :
    readMantissa (mantissa ++ r) = (whole, fraction, r) := by
  have hend : ∀ c ∈ r.head?, c.isDigit = false := fun c hc => (hr c hc).1
  cases h with
  | whole h =>
      have hdigits := (isDigits_iff.1 h).2
      rw [readMantissa, takeWhile_append_of_head hdigits hend, dropWhile_append_of_head hdigits hend]
      split
      · exact absurd rfl (hr '.' rfl).2
      · rfl
  | fraction hds hfs =>
      have hdigits := (isDigits_iff.1 hds).2
      have hpoint : ∀ c ∈ ('.' :: (fraction ++ r)).head?, c.isDigit = false := by simp
      rw [readMantissa, List.append_assoc, List.cons_append, takeWhile_append_of_head hdigits hpoint,
        dropWhile_append_of_head hdigits hpoint]
      simp only [takeWhile_append_of_head hfs hend, dropWhile_append_of_head hfs hend]
  | point h =>
      have hdigits := (isDigits_iff.1 h).2
      have hpoint : Char.isDigit '.' = false := rfl
      rw [readMantissa, List.cons_append, List.takeWhile_cons_of_neg (by simp [hpoint]),
        List.dropWhile_cons_of_neg (by simp [hpoint])]
      simp only [takeWhile_append_of_head hdigits hend, dropWhile_append_of_head hdigits hend]

/-- Where digits are read, they are those of a mantissa. -/
theorem exists_isMantissa {body : List Char}
    (h : ¬((readMantissa body).1 = [] ∧ (readMantissa body).2.1 = [])) :
    ∃ mantissa, IsMantissa mantissa (readMantissa body).1 (readMantissa body).2.1 ∧
      body = mantissa ++ (readMantissa body).2.2 := by
  have hsplit := List.takeWhile_append_dropWhile (p := Char.isDigit) (l := body)
  have hwhole : ∀ c ∈ body.takeWhile Char.isDigit, c.isDigit := fun c => List.mem_takeWhile_imp
  unfold readMantissa at h ⊢
  dsimp only at h ⊢
  generalize body.takeWhile Char.isDigit = whole at *
  split at h
  · next r hdrop =>
      have hrest := List.takeWhile_append_dropWhile (p := Char.isDigit) (l := r)
      have hfraction : ∀ c ∈ r.takeWhile Char.isDigit, c.isDigit := fun c => List.mem_takeWhile_imp
      rw [hdrop] at hsplit
      dsimp only at h ⊢
      rcases eq_or_ne whole [] with rfl | hne
      · refine ⟨_, .point (isDigits_iff.2 ⟨fun hnil => h ⟨rfl, hnil⟩, hfraction⟩), ?_⟩
        rw [List.cons_append, hrest, ← hsplit, List.nil_append]
      · refine ⟨_, .fraction (isDigits_iff.2 ⟨hne, hwhole⟩) hfraction, ?_⟩
        rw [List.append_assoc, List.cons_append, hrest, hsplit]
  · exact ⟨whole, .whole (isDigits_iff.2 ⟨fun hnil => h ⟨hnil, rfl⟩, hwhole⟩), hsplit.symm⟩

/-- Numerals are read from the texts of the grammar, and from no others. -/
theorem Numeral.read?_eq_some_iff {l : List Char} {n : Numeral} :
    Numeral.read? l = some n ↔ SpellsNumeral l n := by
  constructor
  · intro h
    obtain ⟨negative, sign, body, hsign, hl, htake⟩ := exists_takeSign_eq l
    rw [read?_eq htake] at h
    split at h
    · cases h
    · next hne =>
        obtain ⟨mantissa, hmantissa, hbody⟩ := exists_isMantissa hne
        obtain ⟨e, he, rfl⟩ := Option.map_eq_some_iff.1 h
        exact ⟨sign, mantissa, _, hsign, hmantissa, readExponent?_eq_some_iff.1 he, hbody ▸ hl⟩
  · rintro ⟨sign, mantissa, exponent, hsign, hmantissa, hexponent, rfl⟩
    obtain ⟨negative, whole, fraction, e⟩ := n
    have htake : takeSign (sign ++ (mantissa ++ exponent)) = (negative, mantissa ++ exponent) := by
      cases hmantissa with
      | whole h => exact takeSign_append_of_isDigits hsign h exponent
      | fraction hds _ =>
          rw [List.append_assoc]
          exact takeSign_append_of_isDigits hsign hds _
      | point h => exact takeSign_append hsign (by simp)
    have hne : ¬(whole = [] ∧ fraction = []) := by
      rintro ⟨rfl, rfl⟩
      cases hmantissa with
      | whole h => exact (isDigits_iff.1 h).1 rfl
      | fraction hds _ => exact (isDigits_iff.1 hds).1 rfl
      | point h => exact (isDigits_iff.1 h).1 rfl
    rw [read?_eq htake, readMantissa_append hmantissa hexponent.head?, if_neg hne,
      readExponent?_eq_some_iff.2 hexponent]
    rfl

end GoCell
