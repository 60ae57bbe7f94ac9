import GoCell.Proofs.Go.LiteralText
import GoCell.Proofs.Number.NearestDouble

/-!
How numbers are written by the float rule. A double becomes the decimal with six places
that is nearest to it, an integer is written as the double nearest to it, and the order of
the numbers is kept.
-/

namespace GoCell

/-- The exact value of a number. -/
def Value.number? : Value → Option ℚ
  | .int n => some n.toInt
  | .float x => x.toRat?
  | _ => none

namespace Go

open Binary64 (IsNearest)

/-- The decimal that an atom denotes. -/
def Atom.decimal? : Atom → Option ℚ
  | .decimal negative digits places => some ((signed negative digits : ℚ) / 10 ^ places)
  | _ => none

/-- The decimal that a text denotes as a literal. -/
def decimalOf? (text : String) : Option ℚ :=
  match readLiteral? text.toList with
  | some (.atom a) => a.decimal?
  | _ => none

/-- Whether a text is a minus sign or none, digits without superfluous zeros in front, a
point, and six digits. -/
def HasSixPlaces (negative : Bool) (text : String) : Prop :=
  ∃ whole places : List Char,
    text.toList = (if negative then ['-'] else []) ++ (whole ++ '.' :: places) ∧
      whole ≠ [] ∧ (whole.head? = some '0' → whole = ['0']) ∧ places.length = 6 ∧
      ∀ c ∈ whole ++ places, c.isDigit

/-! ### Finite doubles -/

theorem hasSixPlaces_floatLiteral (negative : Bool) (index : Fin Binary64.finiteCount) :
    HasSixPlaces negative (floatLiteral (.finite negative index)) := by
  obtain ⟨n, hn⟩ : ∃ n, n = Binary64.toPlaces floatPlaces index := ⟨_, rfl⟩
  have hlt : n % 10 ^ 6 < 10 ^ 6 := Nat.mod_lt _ (by decide)
  refine ⟨writeNat (n / 10 ^ 6), padNat 6 (n % 10 ^ 6), ?_, writeNat_ne_nil _, fun hzero => ?_,
    length_padNat (by decide) hlt, ?_⟩
  · rw [floatLiteral, String.toList_ofList, Binary64.writeFixed, ← hn]
    cases negative <;> rfl
  · rw [eq_zero_of_head?_writeNat hzero]
    rfl
  · rw [List.forall_mem_append]
    exact ⟨fun _ => isDigit_of_mem_writeNat, fun _ => isDigit_of_mem_padNat⟩

/-- The literal of a finite double denotes what its atom does. -/
theorem decimalOf?_floatLiteral {x : Binary64} (h : x.isFinite) :
    decimalOf? (floatLiteral x) = (Atom.ofBinary64 x).decimal? := by
  have hread : readLiteral? (floatLiteral x).toList = some (.atom (Atom.ofBinary64 x)) :=
    readLiteral?_of_spells (spells_floatLiteral h)
  rw [decimalOf?, hread]

/-- A finite double becomes the multiple of `10 ^ -6` that is nearest to it. -/
theorem exists_decimal?_ofBinary64 {x : Binary64} {r : ℚ} (h : x.toRat? = some r) :
    ∃ k : ℤ, (Atom.ofBinary64 x).decimal? = some ((k : ℚ) / 10 ^ 6) ∧
      NearestEven (r * 10 ^ 6) k := by
  cases x with
  | finite negative index =>
      cases h
      exact ⟨_, rfl, Binary64.nearestEven_toPlaces 6 negative index⟩
  | infinite _ => cases h
  | nan => cases h

theorem exists_decimalOf?_floatLiteral {x : Binary64} {r : ℚ} (h : x.toRat? = some r) :
    ∃ k : ℤ, decimalOf? (floatLiteral x) = some ((k : ℚ) / 10 ^ 6) ∧ NearestEven (r * 10 ^ 6) k := by
  have hfinite : x.isFinite := by
    cases x with
    | finite _ _ => rfl
    | _ => cases h
  rw [decimalOf?_floatLiteral hfinite]
  exact exists_decimal?_ofBinary64 h

/-! ### Numbers -/

/-- A number is written as the double nearest to it. -/
theorem exists_scalarLiteral_eq {v : Value} {r : ℚ} (h : v.number? = some r) :
    ∃ x, scalarLiteral .float32 v = floatLiteral x ∧ IsNearest r x := by
  cases v with
  | int n =>
      cases h
      obtain ⟨index, heq, hnear⟩ := Binary64.isNearest_ofInt (natAbs_toInt_lt n)
      exact ⟨_, congrArg floatLiteral heq, hnear⟩
  | float x => exact ⟨x, rfl, Binary64.isNearest_self h⟩
  | _ => cases h

theorem decimalOf?_mono {v w : Value} {r s : ℚ} (hv : v.number? = some r)
    (hw : w.number? = some s) (h : r ≤ s) :
    ∃ d e, decimalOf? (scalarLiteral .float32 v) = some d ∧
      decimalOf? (scalarLiteral .float32 w) = some e ∧ d ≤ e := by
  obtain ⟨x, hx, hnearx⟩ := exists_scalarLiteral_eq hv
  obtain ⟨y, hy, hneary⟩ := exists_scalarLiteral_eq hw
  obtain ⟨r', hr⟩ := hnearx.exists_toRat?
  obtain ⟨s', hs⟩ := hneary.exists_toRat?
  obtain ⟨k, hk, hkr⟩ := exists_decimalOf?_floatLiteral hr
  obtain ⟨l, hl, hls⟩ := exists_decimalOf?_floatLiteral hs
  have hvalues : r' ≤ s' := hnearx.mono hneary hr hs h
  have hkl : k ≤ l := hkr.mono hls (mul_le_mul_of_nonneg_right hvalues (by norm_num))
  have hkl' : (k : ℚ) ≤ l := by exact_mod_cast hkl
  refine ⟨_, _, hx ▸ hk, hy ▸ hl, ?_⟩
  exact div_le_div_of_nonneg_right hkl' (by norm_num)

/-! ### Integers -/

theorem writePlaces_mul (places n : Nat) :
    writePlaces places (n * 10 ^ places) = writeNat n ++ '.' :: padNat places 0 := by
  rw [writePlaces, Nat.pow_eq, Nat.mul_div_cancel _ (Nat.pow_pos (by decide)), Nat.mul_mod_left]

/-- Integers that are doubles get six zeros. -/
theorem scalarLiteral_int_of_natAbs_le {n : Int64} (h : n.toInt.natAbs ≤ 2 ^ 53) :
    scalarLiteral .float32 (.int n) = (Value.int n).display ++ ".000000" := by
  obtain ⟨index, heq, hunits⟩ := Binary64.exists_ofInt_eq h
  have hplaces : Binary64.toPlaces floatPlaces index = n.toInt.natAbs * 10 ^ floatPlaces := by
    rw [Binary64.toPlaces, hunits, Nat.mul_right_comm]
    exact roundDiv_mul_self _ _ Binary64.unitsPerOne_pos
  have hwrite : Binary64.writeFixed floatPlaces (n.toInt < 0) index =
      writeInt n.toInt ++ ".000000".toList := by
    have hzeros : '.' :: padNat floatPlaces 0 = ".000000".toList := by decide
    rw [Binary64.writeFixed, hplaces, writePlaces_mul, hzeros, writeInt]
    by_cases hn : n.toInt < 0 <;> simp [hn]
  rw [scalarLiteral, heq, floatLiteral, hwrite, String.ofList_append, String.ofList_toList]
  rfl

/-- The float rule rounds to six places and keeps the order of the numbers. Where an integer
is no double, the nearest one is written in its place. -/
theorem floatRule_rounds :
    (∀ negative index, ∃ (r : ℚ) (k : ℤ),
      (Binary64.finite negative index).toRat? = some r ∧
      HasSixPlaces negative (scalarLiteral .float32 (.float (.finite negative index))) ∧
      decimalOf? (scalarLiteral .float32 (.float (.finite negative index))) =
        some ((k : ℚ) / 10 ^ 6) ∧
      NearestEven (r * 10 ^ 6) k) ∧
    (∀ n : Int64,
      (∃ index, IsNearest n.toInt (.finite (n.toInt < 0) index) ∧
        scalarLiteral .float32 (.int n) =
          scalarLiteral .float32 (.float (.finite (n.toInt < 0) index))) ∧
      (n.toInt.natAbs ≤ 2 ^ 53 →
        scalarLiteral .float32 (.int n) = (Value.int n).display ++ ".000000")) ∧
    ∀ (v w : Value) (r s : ℚ), v.number? = some r → w.number? = some s → r ≤ s →
      ∃ d e, decimalOf? (scalarLiteral .float32 v) = some d ∧
        decimalOf? (scalarLiteral .float32 w) = some e ∧ d ≤ e := by
  refine ⟨fun negative index => ?_, fun n => ⟨?_, scalarLiteral_int_of_natAbs_le⟩,
    fun v w r s hv hw h => decimalOf?_mono hv hw h⟩
  · obtain ⟨k, hdecimal, hnear⟩ :=
      exists_decimalOf?_floatLiteral (Binary64.toRat?_finite negative index)
    exact ⟨_, k, Binary64.toRat?_finite negative index,
      hasSixPlaces_floatLiteral negative index, hdecimal, hnear⟩
  · obtain ⟨index, heq, hnear⟩ := Binary64.isNearest_ofInt (natAbs_toInt_lt n)
    exact ⟨index, hnear, congrArg floatLiteral heq⟩

/-- An integer that is a double, and one that is not and is above a negative zero. -/
theorem floatRule_rounds_neg_three :
    scalarLiteral .float32 (.int (-3)) = "-3.000000" ∧
      ∃ d e, decimalOf? (scalarLiteral .float32 (.float (.zero true))) = some d ∧
        decimalOf? (scalarLiteral .float32 (.int 9007199254740993)) = some e ∧ d ≤ e := by
  have hzero : (Value.float (.zero true)).number? = some 0 := Binary64.toRat?_zero true
  refine ⟨?_, floatRule_rounds.2.2 _ _ 0 9007199254740993 hzero ?_ (by norm_num)⟩
  · rw [(floatRule_rounds.2.1 (-3)).2 (by decide)]
    decide
  · have hint : (9007199254740993 : Int64).toInt = 9007199254740993 := by decide
    simp [Value.number?, hint]

end Go

end GoCell
