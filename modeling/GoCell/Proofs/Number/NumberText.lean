import GoCell.Number.Layout
import GoCell.Proofs.Number.Digits
import GoCell.Proofs.Number.ShortestDecimal

/-!
The texts of numbers. Such a text is made of digits around a point and an exponent.
Positional or with an exponent, the text of a finite double is never an integer's,
and it denotes the double that it was written for.
-/

namespace GoCell

namespace Binary64

/-- Zeros may move between the digits of a decimal and its exponent. -/
theorem ofDecimal_mul_pow (negative : Bool) (digits j : Nat) (exponent : Int) :
    ofDecimal negative (digits * 10 ^ j) (exponent - j) =
      ofDecimal negative digits exponent := by
  have hpowers : 10 ^ j * 10 ^ (exponent - j).toNat * 10 ^ (-exponent).toNat =
      10 ^ exponent.toNat * 10 ^ (-(exponent - j)).toNat := by
    rw [← Nat.pow_add, ← Nat.pow_add, ← Nat.pow_add]
    congr 1
    omega
  have hindex : nearestIndex (digits * 10 ^ j * 10 ^ (exponent - j).toNat * unitsPerOne)
        (10 ^ (-(exponent - j)).toNat) =
      nearestIndex (digits * 10 ^ exponent.toNat * unitsPerOne) (10 ^ (-exponent).toNat) := by
    refine nearestIndex_congr (Nat.pow_pos (by decide)) (Nat.pow_pos (by decide)) ?_
    generalize unitsPerOne = u
    calc
      digits * 10 ^ j * 10 ^ (exponent - j).toNat * u * 10 ^ (-exponent).toNat =
          digits * (10 ^ j * 10 ^ (exponent - j).toNat * 10 ^ (-exponent).toNat) * u := by ring
      _ = digits * 10 ^ exponent.toNat * u * 10 ^ (-(exponent - j)).toNat := by
        rw [hpowers]
        ring
  rw [ofDecimal_eq_ofUnits, ofDecimal_eq_ofUnits]
  simp only [ofUnits, hindex]

end Binary64

/-- The parts of a written magnitude: the digits on the two sides of its point, and
its exponent. It has no superfluous zero in front. -/
structure NumberText where
  whole : List Char
  fraction : List Char
  exponent : Option Int
  whole_ne_nil : whole ≠ []
  isDigit_of_mem : ∀ c ∈ whole ++ fraction, c.isDigit
  whole_eq_of_head? : whole.head? = some '0' → whole = ['0']

namespace NumberText

/-- A point and the digits after it, if there are any. -/
def pointChars : List Char → List Char
  | [] => []
  | r => '.' :: r

theorem pointChars_of_ne_nil {l : List Char} (h : l ≠ []) : pointChars l = '.' :: l := by
  obtain ⟨c, r, rfl⟩ := List.exists_cons_of_ne_nil h
  rfl

/-- An exponent with its sign. -/
def exponentChars (plus : Bool) : Option Int → List Char
  | none => []
  | some e => 'e' :: ((if plus && 0 ≤ e then ['+'] else []) ++ writeInt e)

def chars (plus : Bool) (t : NumberText) : List Char :=
  t.whole ++ (pointChars t.fraction ++ exponentChars plus t.exponent)

/-- Integers have neither a fraction nor an exponent. -/
def IsInteger (t : NumberText) : Prop := t.fraction = [] ∧ t.exponent = none

/-- The text of a natural number. -/
def ofNat (n : Nat) : NumberText where
  whole := writeNat n
  fraction := []
  exponent := none
  whole_ne_nil := writeNat_ne_nil n
  isDigit_of_mem := by
    rw [List.append_nil]
    exact fun _ => isDigit_of_mem_writeNat
  whole_eq_of_head? := fun h => by
    rw [eq_zero_of_head?_writeNat h]
    rfl

@[simp] theorem chars_ofNat (plus : Bool) (n : Nat) : (ofNat n).chars plus = writeNat n := by
  simp [ofNat, chars, pointChars, exponentChars]

/-- The numeral with these parts. -/
def numeral (negative : Bool) (t : NumberText) : Numeral :=
  ⟨negative, t.whole, t.fraction, t.exponent.getD 0⟩

/-- Whether a magnitude's text denotes a decimal, with either sign. -/
def Denotes (t : NumberText) (digits : Nat) (exponent : Int) : Prop :=
  ∀ negative, (t.numeral negative).toBinary64 = .ofDecimal negative digits exponent

/-- The fraction adds zeros to the digits or none. -/
theorem denotes_of_readDigits {t : NumberText} {digits j : Nat} {exponent : Int}
    (hdigits : readDigits (t.whole ++ t.fraction) = digits * 10 ^ j)
    (hexponent : t.exponent.getD 0 - t.fraction.length = exponent - j) :
    t.Denotes digits exponent := by
  intro negative
  rw [Numeral.toBinary64, numeral, hdigits, hexponent, Binary64.ofDecimal_mul_pow]

end NumberText

/-- Digits without superfluous zeros in front, not all zero. -/
structure SignificantDigits (ds : List Char) : Prop where
  ne_nil : ds ≠ []
  isDigit_of_mem : ∀ c ∈ ds, c.isDigit
  head?_ne_zero : ds.head? ≠ some '0'

/-- Without the zeros at their end the digits of a positive number denote a multiple of it. -/
theorem exists_significantDigits {n : Nat} (h : 0 < n) :
    SignificantDigits (Text.dropEndWhile (· == '0') (writeNat n)) ∧
      ∃ z, (writeNat n).length = (Text.dropEndWhile (· == '0') (writeNat n)).length + z ∧
        n = readDigits (Text.dropEndWhile (· == '0') (writeNat n)) * 10 ^ z := by
  obtain ⟨zeros, hsplit, hzeros⟩ := Text.exists_dropEndWhile_append (· == '0') (writeNat n)
  generalize Text.dropEndWhile (· == '0') (writeNat n) = ds at hsplit ⊢
  have hreplicate : zeros = List.replicate zeros.length '0' :=
    List.eq_replicate_of_mem fun c hc => by simpa using hzeros c hc
  have hhead : (writeNat n).head? ≠ some '0' := by
    intro hzero
    have := eq_zero_of_head?_writeNat hzero
    omega
  have hvalue : n = readDigits ds * 10 ^ zeros.length := by
    rw [← readDigits_append_zeros, ← hreplicate, ← hsplit, readDigits_writeNat]
  have hne : ds ≠ [] := by
    rintro rfl
    have : n = 0 := by simpa [readDigits] using hvalue
    omega
  refine ⟨⟨hne, ?_, ?_⟩, zeros.length, ?_, hvalue⟩
  · intro c hc
    exact isDigit_of_mem_writeNat (n := n) (hsplit ▸ List.mem_append_left _ hc)
  · intro hzero
    rw [hsplit, List.head?_append_of_ne_nil _ hne] at hhead
    exact hhead hzero
  · rw [hsplit, List.length_append]

section Layout

variable {ds : List Char} (hds : SignificantDigits ds)

namespace SignificantDigits

include hds

theorem head?_append (r : List Char) : (ds ++ r).head? ≠ some '0' := by
  obtain ⟨c, ds, rfl⟩ := List.exists_cons_of_ne_nil hds.ne_nil
  exact hds.head?_ne_zero

theorem head?_take {n : Nat} (hn : 0 < n) : (ds.take n).head? ≠ some '0' := by
  rw [List.head?_take, if_neg (by omega)]
  exact hds.head?_ne_zero

end SignificantDigits

namespace NumberText

/-- All digits after the point, behind `n` zeros. -/
def below (n : Nat) : NumberText where
  whole := ['0']
  fraction := List.replicate n '0' ++ ds
  exponent := none
  whole_ne_nil := by simp
  isDigit_of_mem := by
    simp only [List.forall_mem_append, List.forall_mem_singleton]
    exact ⟨rfl, fun _ => isDigit_of_mem_zeros, hds.isDigit_of_mem⟩
  whole_eq_of_head? := fun _ => rfl

/-- All digits before the point, with `n` zeros behind them. -/
def above (n : Nat) : NumberText where
  whole := ds ++ List.replicate n '0'
  fraction := ['0']
  exponent := none
  whole_ne_nil := by simp [hds.ne_nil]
  isDigit_of_mem := by
    simp only [List.forall_mem_append, List.forall_mem_singleton]
    exact ⟨⟨hds.isDigit_of_mem, fun _ => isDigit_of_mem_zeros⟩, rfl⟩
  whole_eq_of_head? := fun h => absurd h (hds.head?_append _)

/-- The first `n` digits before the point and the others after it. -/
def split {n : Nat} (hn : 0 < n) (exponent : Option Int) : NumberText where
  whole := ds.take n
  fraction := ds.drop n
  exponent := exponent
  whole_ne_nil := by simp [hds.ne_nil, hn.ne']
  isDigit_of_mem := by simpa only [List.take_append_drop] using hds.isDigit_of_mem
  whole_eq_of_head? := fun h => absurd h (hds.head?_take hn)

theorem denotes_below (n : Nat) :
    (below hds n).Denotes (readDigits ds) (-(n : Int) - ds.length) := by
  refine denotes_of_readDigits (j := 0) ?_ ?_
  · rw [Nat.pow_zero, Nat.mul_one]
    exact readDigits_zeros_append (n + 1) ds
  · simp only [below, Option.getD_none, List.length_append, List.length_replicate]
    omega

theorem denotes_above (n : Nat) : (above hds n).Denotes (readDigits ds) n := by
  refine denotes_of_readDigits (j := n + 1) ?_ ?_
  · rw [above, List.append_assoc, ← List.replicate_succ', readDigits_append_zeros]
  · simp only [above, Option.getD_none, List.length_singleton]
    omega

theorem denotes_split {n : Nat} (hn : 0 < n) (hle : n ≤ ds.length) (exponent : Option Int) :
    (split hds hn exponent).Denotes (readDigits ds) (exponent.getD 0 + n - ds.length) := by
  refine denotes_of_readDigits (j := 0) ?_ ?_
  · rw [split, List.take_append_drop, Nat.pow_zero, Nat.mul_one]
  · simp only [split, List.length_drop]
    omega

end NumberText

namespace FloatLayout

open NumberText

include hds

/-- The digits may all stand after the point, all before it, or on both sides. -/
theorem exists_positional_eq (k : Int) (plus : Bool) :
    ∃ t : NumberText, ¬t.IsInteger ∧ positional ds k = t.chars plus ∧
      t.Denotes (readDigits ds) (k - ds.length) := by
  unfold positional
  split
  · next hk =>
      have hne : (below hds (-k).toNat).fraction ≠ [] := by simp [below, hds.ne_nil]
      refine ⟨below hds (-k).toNat, fun h => hne h.1, ?_, ?_⟩
      · rw [chars, pointChars_of_ne_nil hne]
        simp [below, exponentChars]
      · rw [show k - ds.length = -((-k).toNat : Int) - ds.length by omega]
        exact denotes_below hds _
  · split
    · refine ⟨above hds (k.toNat - ds.length), by simp [IsInteger, above], ?_, ?_⟩
      · simp [above, chars, pointChars, exponentChars]
      · rw [show k - ds.length = (k.toNat - ds.length : Nat) by omega]
        exact denotes_above hds _
    · have hpos : 0 < k.toNat := by omega
      have hne : ds.drop k.toNat ≠ [] := by
        simp only [ne_eq, List.drop_eq_nil_iff]
        omega
      refine ⟨NumberText.split hds hpos none, fun h => hne h.1, ?_, ?_⟩
      · simp [NumberText.split, chars, pointChars_of_ne_nil hne, exponentChars]
      · have hdenotes := denotes_split hds hpos (by omega) none
        rwa [Option.getD_none, Int.zero_add, Int.toNat_of_nonneg (by omega)] at hdenotes

theorem exists_scientific_eq (layout : FloatLayout) (k : Int) :
    ∃ t : NumberText, ¬t.IsInteger ∧ layout.scientific ds k = t.chars layout.plusInExponent ∧
      t.Denotes (readDigits ds) (k - ds.length) := by
  have hlength := List.length_pos_of_ne_nil hds.ne_nil
  refine ⟨NumberText.split hds Nat.one_pos (some (k - 1)), by simp [IsInteger, NumberText.split],
    ?_, ?_⟩
  · have hsign : decide (1 ≤ k) = decide (0 ≤ k - 1) := decide_eq_decide.2 (by omega)
    unfold scientific
    rw [hsign]
    exact List.append_assoc _ _ _
  · have hdenotes := denotes_split hds Nat.one_pos hlength (some (k - 1))
    rwa [Option.getD_some, Nat.cast_one, Int.sub_add_cancel] at hdenotes

end FloatLayout

end Layout

/-- The text of a finite magnitude is read as that magnitude. -/
theorem FloatLayout.exists_writeIndex_eq (layout : FloatLayout) (index : Fin Binary64.finiteCount) :
    ∃ t : NumberText, ¬t.IsInteger ∧ layout.writeIndex index = t.chars layout.plusInExponent ∧
      ∀ negative, (t.numeral negative).toBinary64 = .finite negative index := by
  unfold writeIndex
  split
  · next hzero =>
      refine ⟨{
        whole := ['0']
        fraction := ['0']
        exponent := none
        whole_ne_nil := by simp
        isDigit_of_mem := by simp
        whole_eq_of_head? := fun _ => rfl }, by simp [NumberText.IsInteger], rfl,
        fun negative => ?_⟩
      have hindex : index = ⟨0, by decide⟩ := Fin.ext hzero
      rw [hindex]
      rfl
  · next hpos =>
      have hreads := Binary64.readsBack_shortest layout.tie index
      have hdigits := Binary64.digits_pos_of_readsBack (Nat.pos_of_ne_zero hpos) hreads
      obtain ⟨hds, z, hlength, hvalue⟩ := exists_significantDigits hdigits
      dsimp only
      -- from here on only the value of the decimal counts, not how it was found
      generalize Binary64.shortest layout.tie index = d at *
      generalize Text.dropEndWhile (· == '0') (writeNat d.digits) = ds at *
      generalize hk : (writeNat d.digits).length + d.exponent = k
      have htext : ∃ t : NumberText, ¬t.IsInteger ∧
          (if layout.least ≤ k ∧ k ≤ layout.greatest then positional ds k
            else layout.scientific ds k) = t.chars layout.plusInExponent ∧
          t.Denotes (readDigits ds) (k - ds.length) := by
        split
        · exact exists_positional_eq hds k layout.plusInExponent
        · exact exists_scientific_eq hds layout k
      obtain ⟨t, hreal, hchars, hdenotes⟩ := htext
      refine ⟨t, hreal, hchars, fun negative => ?_⟩
      have hexponent : d.exponent = k - ds.length - z := by omega
      rw [hdenotes negative, ← Binary64.ofDecimal_mul_pow negative _ z, ← hvalue, ← hexponent]
      exact Binary64.ofDecimal_of_readsBack hreads negative

end GoCell
