import GoCell.Go.PackageClause
import GoCell.Proofs.Go.StringReader
import GoCell.Proofs.Number.Digits
import GoCell.Proofs.Text.Piece
import Mathlib.Data.List.Forall2

/-!
Tokens of Go, as far as declarations of values need them. A text outside this
part of the language has no tokens. Spaces and tabs between tokens are dropped;
a line break is not a token here, so a text with tokens is one line.
-/

namespace GoCell.Go

open Text (takeWhile_append_of_head dropWhile_append_of_head)

inductive Token
  | word (name : List Char)
  | integer (n : Nat)
  /-- The number `digits * 10 ^ -places`. -/
  | decimal (digits places : Nat)
  | text (bytes : List UInt8)
  | leftBracket
  | rightBracket
  | leftBrace
  | rightBrace
  | comma
  | equals
  | minus
  deriving DecidableEq

namespace Token

/-- The token of a single character. -/
def ofMark? (c : Char) : Option Token :=
  if c = '[' then some leftBracket
  else if c = ']' then some rightBracket
  else if c = '\x7b' then some leftBrace
  else if c = '\x7d' then some rightBrace
  else if c = ',' then some comma
  else if c = '=' then some equals
  else if c = '-' then some minus
  else none

end Token

/-- Whether a text cannot continue a word or a number. -/
def startsApart (l : List Char) : Bool :=
  match l with
  | [] => true
  | c :: _ => !isIdentChar c && c != '.'

/-- A number at the start of a text, in decimal and without exponent. An integer
with a superfluous zero in front would be octal and is none. -/
def readNumber? (l : List Char) : Option (Token × List Char) :=
  let whole := l.takeWhile Char.isDigit
  match l.dropWhile Char.isDigit with
  | '.' :: r =>
    let fraction := r.takeWhile Char.isDigit
    let rest := r.dropWhile Char.isDigit
    if startsApart rest then some (.decimal (readDigits (whole ++ fraction)) fraction.length, rest)
    else none
  | rest =>
    if startsApart rest ∧ (whole.head? = some '0' → whole = ['0']) then
      some (.integer (readDigits whole), rest)
    else none

/-- The token at the start of a text. -/
def readToken? : List Char → Option (Token × List Char)
  | [] => none
  | c :: r =>
    if c = '"' then (readInterpreted? r).map (Prod.map .text id)
    else if c.isDigit then readNumber? (c :: r)
    else if isIdentStart c then
      some (.word (c :: r.takeWhile isIdentChar), r.dropWhile isIdentChar)
    else (Token.ofMark? c).map (·, r)

theorem length_dropWhile_le {α : Type} (p : α → Bool) (l : List α) :
    (l.dropWhile p).length ≤ l.length :=
  (List.dropWhile_sublist p).length_le

theorem length_lt_of_readNumber? {c : Char} {r rest : List Char} {t : Token}
    (hdigit : c.isDigit) (h : readNumber? (c :: r) = some (t, rest)) :
    rest.length < (c :: r).length := by
  have hdrop : (c :: r).dropWhile Char.isDigit = r.dropWhile Char.isDigit := by
    simp [hdigit]
  have hle := length_dropWhile_le Char.isDigit r
  simp only [readNumber?, hdrop] at h
  split at h
  · next fraction hpoint =>
    rw [hpoint, List.length_cons] at hle
    have hle' := length_dropWhile_le Char.isDigit fraction
    split at h
    · obtain ⟨-, rfl⟩ := Prod.mk.inj (Option.some.inj h)
      rw [List.length_cons]
      omega
    · cases h
  · split at h
    · obtain ⟨-, rfl⟩ := Prod.mk.inj (Option.some.inj h)
      exact Nat.lt_succ_of_le hle
    · cases h

theorem length_lt_of_readToken? {l rest : List Char} {t : Token}
    (h : readToken? l = some (t, rest)) : rest.length < l.length := by
  cases l with
  | nil => cases h
  | cons c r =>
      simp only [readToken?] at h
      split at h
      · obtain ⟨⟨bytes, rest'⟩, hread, heq⟩ := Option.map_eq_some_iff.1 h
        obtain ⟨-, rfl⟩ := Prod.mk.inj heq
        exact Nat.lt_succ_of_lt (length_lt_of_readInterpreted? hread)
      split at h
      · next hdigit => exact length_lt_of_readNumber? hdigit h
      split at h
      · obtain ⟨-, rfl⟩ := Prod.mk.inj (Option.some.inj h)
        exact Nat.lt_succ_of_le (length_dropWhile_le isIdentChar r)
      · obtain ⟨t', _, heq⟩ := Option.map_eq_some_iff.1 h
        obtain ⟨-, rfl⟩ := Prod.mk.inj heq
        exact Nat.lt_succ_self r.length

/-- The tokens of a text. -/
def tokens? : List Char → Option (List Token)
  | [] => some []
  | c :: r =>
    if isGap c then tokens? r
    else match h : readToken? (c :: r) with
      | none => none
      | some (t, rest) =>
        have := length_lt_of_readToken? h
        (tokens? rest).map (t :: ·)
termination_by l => l.length
decreasing_by
  · exact Nat.lt_succ_self r.length
  · exact this

/-! ### Where a text spells tokens -/

theorem tokens?_cons_of_readToken? {c : Char} {r rest : List Char} {t : Token}
    (hgap : isGap c = false) (h : readToken? (c :: r) = some (t, rest)) :
    tokens? (c :: r) = (tokens? rest).map (t :: ·) := by
  rw [tokens?, if_neg (by simp [hgap])]
  split
  · next hnone => simp [h] at hnone
  · next t' rest' hsome =>
      rw [h] at hsome
      cases hsome
      rfl

theorem tokens?_cons_of_isGap {c : Char} (r : List Char) (h : isGap c) :
    tokens? (c :: r) = tokens? r := by
  rw [tokens?, if_pos h]

/-- A mark is a token of its own, whatever follows. -/
theorem readToken?_of_ofMark? {c : Char} {t : Token} (h : Token.ofMark? c = some t) :
    isGap c = false ∧ ∀ rest, readToken? (c :: rest) = some (t, rest) := by
  unfold Token.ofMark? at h
  repeat
    split at h
    · subst c
      cases h
      exact ⟨rfl, fun _ => rfl⟩
  cases h

/-- Whether a text has these tokens in front of every text that starts apart. -/
def Spells (text : List Char) (ts : List Token) : Prop :=
  ∀ rest, startsApart rest → tokens? (text ++ rest) = (tokens? rest).map (ts ++ ·)

theorem startsApart_append {a b : List Char} (ha : startsApart a) (hb : startsApart b) :
    startsApart (a ++ b) := by
  cases a with
  | nil => exact hb
  | cons c r => exact ha

namespace Spells

theorem tokens?_eq {text : List Char} {ts : List Token} (h : Spells text ts) :
    tokens? text = some ts := by
  have hall := h [] rfl
  simpa [tokens?] using hall

theorem nil : Spells [] [] := by
  intro rest _
  simp

theorem append {a b : List Char} {ts us : List Token} (ha : Spells a ts) (hb : Spells b us)
    (hapart : startsApart b) : Spells (a ++ b) (ts ++ us) := by
  intro rest hrest
  rw [List.append_assoc, ha _ (startsApart_append hapart hrest), hb rest hrest]
  simp [Function.comp_def]

/-- A mark is a token of its own before any text. -/
theorem mark {c : Char} {t : Token} {text : List Char} {ts : List Token}
    (hmark : Token.ofMark? c = some t) (h : Spells text ts) : Spells (c :: text) (t :: ts) := by
  obtain ⟨hgap, hread⟩ := readToken?_of_ofMark? hmark
  intro rest hrest
  rw [List.cons_append, tokens?_cons_of_readToken? hgap (hread _), h rest hrest]
  simp [Function.comp_def]

theorem gap {c : Char} {text : List Char} {ts : List Token} (hgap : isGap c)
    (h : Spells text ts) : Spells (c :: text) ts := by
  intro rest hrest
  rw [List.cons_append, tokens?_cons_of_isGap _ hgap, h rest hrest]

theorem of_readToken? {text : List Char} {t : Token} (hgap : ∀ c ∈ text.head?, isGap c = false)
    (hne : text ≠ []) (h : ∀ rest, startsApart rest → readToken? (text ++ rest) = some (t, rest)) :
    Spells text [t] := by
  intro rest hrest
  cases text with
  | nil => exact absurd rfl hne
  | cons c r =>
      exact tokens?_cons_of_readToken? (hgap c rfl) (h rest hrest)

theorem gaps {l text : List Char} {ts : List Token} (hgaps : ∀ c ∈ l, isGap c)
    (h : Spells text ts) : Spells (l ++ text) ts := by
  induction l with
  | nil => exact h
  | cons c l ih =>
      exact gap (hgaps c (by simp)) (ih fun c hc => hgaps c (by simp [hc]))

/-- Items with a comma and perhaps gaps between them. -/
theorem intercalate {l : List Char} (hgaps : ∀ c ∈ l, isGap c)
    {texts : List (List Char)} {tss : List (List Token)} (h : List.Forall₂ Spells texts tss) :
    Spells ((',' :: l).intercalate texts) ([Token.comma].intercalate tss) := by
  induction h with
  | nil => exact nil
  | cons hfirst hrest ih =>
      cases hrest with
      | nil => simpa using hfirst
      | cons hsecond hrest =>
          rw [List.intercalate_cons_cons, List.intercalate_cons_cons, List.append_assoc,
            List.append_assoc]
          exact hfirst.append (mark rfl (gaps hgaps ih)) rfl

end Spells

theorem isIdentChar_of_isDigit {c : Char} (h : c.isDigit) : isIdentChar c := by
  simp [isIdentChar, Text.isDecimalDigit_of_isDigit h]

theorem not_isIdentChar_of_startsApart {l : List Char} (h : startsApart l) :
    ∀ c ∈ l.head?, isIdentChar c = false := by
  cases l with
  | nil => simp
  | cons c r => simp_all [startsApart]

theorem not_isDigit_of_startsApart {l : List Char} (h : startsApart l) :
    ∀ c ∈ l.head?, c.isDigit = false := by
  intro c hc
  rw [Bool.eq_false_iff]
  intro hdigit
  have hident := isIdentChar_of_isDigit hdigit
  rw [not_isIdentChar_of_startsApart h c hc] at hident
  cases hident

theorem not_isIdentStart_of_isDigit {c : Char} (h : c.isDigit) : isIdentStart c = false := by
  have hrange := (Char.isDigit_iff_toNat.1 h).2
  have hascii : c.toNat < 128 := Nat.lt_of_le_of_lt hrange (by decide)
  have hbelow {d : Char} (hd : '9'.toNat < d.toNat) : ¬ d.val ≤ c.val := fun hle =>
    absurd (UInt32.le_iff_toNat_le.1 hle) (Nat.not_le_of_lt (Nat.lt_of_le_of_lt hrange hd))
  rw [isIdentStart, Text.isLetter_of_lt hascii, Bool.or_eq_false_iff]
  constructor
  · rw [beq_eq_false_iff_ne]
    rintro rfl
    exact absurd h (by decide)
  · show (decide ('A'.val ≤ c.val ∧ c.val ≤ 'Z'.val) ||
      (decide ('a'.val ≤ c.val) && decide (c.val ≤ 'z'.val))) = false
    rw [decide_eq_false fun hupper => hbelow (by decide) hupper.1,
      decide_eq_false (hbelow (by decide))]
    rfl

theorem spells_word {name : List Char} (h : isIdentShape name) : Spells name [.word name] := by
  cases name with
  | nil => simp [isIdentShape] at h
  | cons c r =>
      obtain ⟨hstart, hrest⟩ : isIdentStart c ∧ r.all isIdentChar := by
        simpa [isIdentShape] using h
      have hne (d : Char) (hd : isIdentStart d = false) : c ≠ d := by
        rintro rfl
        simp [hd] at hstart
      have hgap : isGap c = false := by
        simp [isGap, hne ' ' rfl, hne '\t' rfl]
      have hdigit : c.isDigit = false := by
        rw [Bool.eq_false_iff]
        intro hdigit
        simp [not_isIdentStart_of_isDigit hdigit] at hstart
      refine Spells.of_readToken? (by simpa using hgap) (by simp) ?_
      intro rest hapart
      have hrest := List.all_eq_true.1 hrest
      have hhead := not_isIdentChar_of_startsApart hapart
      simp [readToken?, hne '"' rfl, hdigit, hstart, takeWhile_append_of_head hrest hhead,
        dropWhile_append_of_head hrest hhead]

/-- A text that starts with a digit and is read as a number spells it. -/
theorem spells_number {text : List Char} {t : Token} (hne : text ≠ [])
    (hdigit : ∀ c ∈ text.head?, c.isDigit)
    (h : ∀ rest, startsApart rest → readNumber? (text ++ rest) = some (t, rest)) :
    Spells text [t] := by
  cases text with
  | nil => exact absurd rfl hne
  | cons c r =>
      have hdigit : c.isDigit := hdigit c rfl
      have hother (d : Char) (hd : d.isDigit = false) : c ≠ d := by
        rintro rfl
        simp [hd] at hdigit
      refine Spells.of_readToken? ?_ hne ?_
      · simp [isGap, hother ' ' rfl, hother '\t' rfl]
      · intro rest hapart
        have hread := h rest hapart
        simpa [readToken?, hother '"' rfl, hdigit] using hread

theorem head?_writeNat_isDigit (n : Nat) (text : List Char) :
    ∀ c ∈ (writeNat n ++ text).head?, c.isDigit := by
  intro c hc
  rw [List.head?_append, Option.or_of_isSome (by simp [writeNat_ne_nil])] at hc
  exact isDigit_of_mem_writeNat (List.mem_of_mem_head? hc)

theorem spells_writeNat (n : Nat) : Spells (writeNat n) [.integer n] := by
  refine spells_number (writeNat_ne_nil n) (by simpa using head?_writeNat_isDigit n []) ?_
  intro rest hapart
  have hdigits : ∀ c ∈ writeNat n, c.isDigit := fun c hc => isDigit_of_mem_writeNat hc
  have hhead := not_isDigit_of_startsApart hapart
  have hzero : (writeNat n).head? = some '0' → writeNat n = ['0'] := by
    intro h
    rw [eq_zero_of_head?_writeNat h]
    rfl
  rw [readNumber?, takeWhile_append_of_head hdigits hhead, dropWhile_append_of_head hdigits hhead]
  dsimp only
  split
  · simp [startsApart] at hapart
  · rw [if_pos ⟨hapart, hzero⟩, readDigits_writeNat]

theorem spells_writePlaces {places : Nat} (hplaces : 0 < places) (n : Nat) :
    Spells (writePlaces places n) [.decimal n places] := by
  refine spells_number (by simp [writePlaces]) (head?_writeNat_isDigit _ _) ?_
  intro rest hapart
  have hwhole : ∀ c ∈ writeNat (n / 10 ^ places), c.isDigit :=
    fun c hc => isDigit_of_mem_writeNat hc
  have hfraction : ∀ c ∈ padNat places (n % 10 ^ places), c.isDigit :=
    fun c hc => isDigit_of_mem_padNat hc
  have hpoint : ∀ c ∈ ('.' :: (padNat places (n % 10 ^ places) ++ rest)).head?,
      c.isDigit = false := by
    simp
  have hhead := not_isDigit_of_startsApart hapart
  have hlength : (padNat places (n % 10 ^ places)).length = places :=
    length_padNat hplaces (Nat.mod_lt _ (Nat.pow_pos (by decide)))
  rw [writePlaces, Nat.pow_eq, List.append_assoc, List.cons_append, readNumber?,
    takeWhile_append_of_head hwhole hpoint, dropWhile_append_of_head hwhole hpoint]
  simp only [takeWhile_append_of_head hfraction hhead, dropWhile_append_of_head hfraction hhead,
    hapart, readDigits_whole_append_fraction hplaces, hlength, if_true]

theorem spells_quoteChars (l : List Char) :
    Spells (quoteChars l) [.text (l.flatMap String.utf8EncodeChar)] := by
  refine Spells.of_readToken? (by simp [quoteChars, isGap]) (by simp [quoteChars]) ?_
  intro rest _
  have hbody := readInterpreted?_flatMap_quoteChar l rest
  simp [quoteChars, readToken?, hbody]

end GoCell.Go
