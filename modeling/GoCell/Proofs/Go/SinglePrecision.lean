import GoCell.Proofs.Go.FloatRule
import GoCell.Proofs.Value.Floats

/-!
Which literals fit the type they are declared with. Floats are written from doubles and
declared with single precision, so a number that is finite as a double can be past the
range of its type. Main result: the decimal of a literal fits where the number it is
written for is below the limit of single precision, whatever six places make of it.
-/

namespace GoCell.Go

open BinaryFormat (single)
open Binary64 (IsNearest)

/-! ### The decimals of a literal -/

/-- The atoms of a literal, from left to right. -/
def Literal.atoms : Literal → List Atom
  | .atom a => [a]
  | .vector _ items => items
  | .table rows => rows.flatten

/-- The decimals that stand in a literal. -/
def Literal.decimals (lit : Literal) : List ℚ := lit.atoms.filterMap Atom.decimal?

/-- The single values that are written under a type, from left to right, each with the
element type by whose rule it is written. -/
def ruled (ty : Ty) (v : Value) : List (Base × Value) :=
  match ty.shape, v with
  | .vector, .seq items => items.map (ty.base, ·)
  | .table, .seq rows => (rows.flatMap rowCells).map fun cell => (scalarBase cell, cell)
  | _, v => [(ty.base, v)]

/-- The numbers that are written by the float rule. -/
def floatRuled (ty : Ty) (v : Value) : List ℚ :=
  (ruled ty v).filterMap fun (base, v) => if base = .float32 then v.number? else none

theorem atoms_ofValue (ty : Ty) (v : Value) :
    (Literal.ofValue ty v).atoms = (ruled ty v).map fun (base, v) => Atom.ofValue base v := by
  obtain ⟨base, shape⟩ := ty
  cases shape with
  | scalar => rfl
  | vector =>
      cases v with
      | seq items => simp [Literal.ofValue, Literal.atoms, ruled, Function.comp_def]
      | _ => rfl
  | table =>
      cases v with
      | seq rows =>
          show (rows.map rowAtoms).flatten =
            ((rows.flatMap rowCells).map fun cell => (scalarBase cell, cell)).map _
          rw [List.map_map, List.map_flatMap, List.flatMap_def]
          exact congrArg List.flatten (List.map_congr_left fun row _ => rowAtoms_eq_map row)
      | _ => rfl

/-! ### The limit of single precision -/

theorem single_limit : single.limit = ((2 ^ 128 - 2 ^ 103 : ℤ) : ℚ) := by
  norm_num [BinaryFormat.limit, single]

/-- A double below an integer is below it by one, if doubles of its size are whole. -/
theorem abs_toRat?_le {x : Binary64} {r : ℚ} {b : ℤ} (hx : x.toRat? = some r) (hb : 2 ^ 53 ≤ b)
    (h : |r| < b) : |r| ≤ b - 1 := by
  obtain ⟨k, d, hk, -, rfl⟩ := Binary64.exists_eq_of_toRat? hx
  rcases lt_or_ge d 0 with hd | hd
  · have hpow : (2 : ℚ) ^ d ≤ 2 ^ (0 : ℤ) := BinaryFormat.two_zpow_le hd.le
    have hk' : |k| ≤ b - 1 := Int.le_sub_one_of_lt (hk.trans_le hb)
    calc
      |(k : ℚ) * 2 ^ d| = |(k : ℚ)| * 2 ^ d := BinaryFormat.abs_mul_two_zpow _ _
      _ ≤ |(k : ℚ)| * 2 ^ (0 : ℤ) := mul_le_mul_of_nonneg_left hpow (abs_nonneg _)
      _ = |(k : ℚ)| := by rw [zpow_zero, mul_one]
      _ ≤ b - 1 := by exact_mod_cast hk'
  · obtain ⟨j, hj⟩ := BinaryFormat.exists_mul_zpow_eq k hd
    rw [hj, zpow_zero, mul_one] at h ⊢
    have hint : |j| < b := by exact_mod_cast h
    exact_mod_cast Int.le_sub_one_of_lt hint

/-- Rounding to six places moves nothing over an integer that is a unit away. -/
theorem abs_div_lt_iff {r : ℚ} {k b : ℤ} (h : NearestEven (r * 10 ^ 6) k)
    (hgap : |r| < b → |r| ≤ b - 1) : |(k : ℚ) / 10 ^ 6| < (b : ℚ) ↔ |r| < b := by
  have hscale : |(10 ^ 6 : ℚ)| = 10 ^ 6 := abs_of_pos (by norm_num)
  have habs : |r * 10 ^ 6| = |r| * 10 ^ 6 := by rw [abs_mul, hscale]
  rw [abs_div, hscale, div_lt_iff₀ (by norm_num)]
  constructor
  · intro hk
    by_contra hr
    have hle : b * 10 ^ 6 ≤ |k| := h.le_abs (by
      rw [habs]
      push_cast
      exact mul_le_mul_of_nonneg_right (not_lt.1 hr) (by norm_num))
    have hle' : (b : ℚ) * 10 ^ 6 ≤ |(k : ℚ)| := by exact_mod_cast hle
    exact absurd hk (not_lt.2 hle')
  · intro hr
    have hle : |k| ≤ (b - 1) * 10 ^ 6 := h.abs_le (by
      rw [habs]
      push_cast
      exact mul_le_mul_of_nonneg_right (hgap hr) (by norm_num))
    have hlt : |k| < b * 10 ^ 6 := by omega
    exact_mod_cast hlt

/-- Whether the decimal of a number fits single precision just where the number is below
the point halfway between the largest single-precision number and `2 ^ 128`. -/
def FitsUnderLimit (d r : ℚ) : Prop := single.Fits d ↔ |r| < 2 ^ 128 - 2 ^ 103

theorem exists_fitsUnderLimit_ofBinary64 {x : Binary64} {r : ℚ} (h : x.toRat? = some r) :
    ∃ d, (Atom.ofBinary64 x).decimal? = some d ∧ FitsUnderLimit d r := by
  obtain ⟨k, hk, hnear⟩ := exists_decimal?_ofBinary64 h
  refine ⟨_, hk, ?_⟩
  have hiff := abs_div_lt_iff hnear (abs_toRat?_le (b := 2 ^ 128 - 2 ^ 103) h (by norm_num))
  rw [FitsUnderLimit, BinaryFormat.fits_iff, single_limit, hiff]
  norm_num

/-! ### Elements -/

theorem abs_toInt_lt (n : Int64) : |(n.toInt : ℚ)| < 2 ^ 64 := by
  have hnat : (n.toInt.natAbs : ℚ) < 2 ^ 64 := by exact_mod_cast natAbs_toInt_lt n
  rwa [Nat.cast_natAbs, Int.cast_abs] at hnat

/-- The double nearest to an integer of 64 bits is far below the limit. -/
theorem abs_lt_of_isNearest_toInt {n : Int64} {x : Binary64} {r : ℚ}
    (h : IsNearest n.toInt x) (hr : x.toRat? = some r) : |r| < 2 ^ 65 := by
  obtain ⟨r', hr', hnear⟩ := h
  obtain rfl : r = r' := Option.some.inj (hr.symm.trans hr')
  have hzero := (hnear _ _ (Binary64.toRat?_zero false)).1
  have htriangle := abs_sub_abs_le_abs_sub r n.toInt
  rw [abs_sub_comm] at htriangle
  rw [sub_zero] at hzero
  linarith [abs_toInt_lt n]

theorem exists_fitsUnderLimit {v : Value} {r : ℚ} (h : v.number? = some r) :
    ∃ d, (Atom.ofValue .float32 v).decimal? = some d ∧ FitsUnderLimit d r := by
  cases v with
  | int n =>
      cases h
      obtain ⟨index, heq, hnear⟩ := Binary64.isNearest_ofInt (natAbs_toInt_lt n)
      obtain ⟨r, hr⟩ := hnear.exists_toRat?
      obtain ⟨d, hd, hfits⟩ := exists_fitsUnderLimit_ofBinary64 hr
      refine ⟨d, ?_, iff_of_true (hfits.2 ?_) ?_⟩
      · rw [Atom.ofValue, heq]
        exact hd
      · exact (abs_lt_of_isNearest_toInt hnear hr).trans (by norm_num)
      · exact (abs_toInt_lt n).trans (by norm_num)
  | float x => exact exists_fitsUnderLimit_ofBinary64 h
  | _ => cases h

/-- An integer is written as a literal that fits. -/
theorem fits_of_decimalOf?_int {n : Int64} {d : ℚ}
    (h : decimalOf? (scalarLiteral .float32 (.int n)) = some d) : single.Fits d := by
  obtain ⟨d', hd, hfits⟩ := exists_fitsUnderLimit (v := .int n) rfl
  rw [scalarLiteral, decimalOf?_floatLiteral (Binary64.isFinite_ofInt (natAbs_toInt_lt n))] at h
  obtain rfl : d = d' := Option.some.inj (h.symm.trans hd)
  exact hfits.2 ((abs_toInt_lt n).trans (by norm_num))

/-- An element is written as a decimal where the float rule is applied to a number. -/
theorem rel_decimal? (base : Base) {v : Value} (h : firstNonFinite? v = none) :
    Option.Rel FitsUnderLimit (Atom.ofValue base v).decimal?
      (if base = .float32 then v.number? else none) := by
  cases base with
  | int => cases v <;> exact .none
  | string => cases v <;> exact .none
  | float32 =>
      rw [if_pos rfl]
      cases hnumber : v.number? with
      | some r =>
          obtain ⟨d, hd, hfits⟩ := exists_fitsUnderLimit hnumber
          rw [hd]
          exact .some hfits
      | none =>
          cases v with
          | int n => cases hnumber
          | float x =>
              cases x with
              | finite _ _ => cases hnumber
              | _ => simp [firstNonFinite?, Binary64.isFinite] at h
          | _ => exact .none

theorem firstNonFinite?_of_mem_ruled {ty : Ty} {v element : Value} {base : Base}
    (h : firstNonFinite? v = none) (hmem : (base, element) ∈ ruled ty v) :
    firstNonFinite? element = none := by
  revert hmem
  fun_cases ruled ty v with
  | case1 items =>
      intro hmem
      obtain ⟨item, hitem, heq⟩ := List.mem_map.1 hmem
      cases heq
      exact firstNonFinite?_eq_none_of_mem h hitem
  | case2 rows =>
      intro hmem
      obtain ⟨cell, hcell, heq⟩ := List.mem_map.1 hmem
      cases heq
      obtain ⟨row, hrow, hcell⟩ := List.mem_flatMap.1 hcell
      have hfinite := firstNonFinite?_eq_none_of_mem h hrow
      cases row with
      | seq cells => exact firstNonFinite?_eq_none_of_mem hfinite hcell
      | _ =>
          cases List.mem_singleton.1 hcell
          exact hfinite
  | case3 =>
      intro hmem
      cases List.mem_singleton.1 hmem
      exact h

theorem exists_literal_eq_notFinite {ty : Ty} {v : Value} (h : ¬ v.AllFinite) :
    ∃ x ∈ v.floats, x.isFinite = false ∧
      literal ty v = .error (.unsupported (.float x) .notFinite) := by
  rw [← firstNonFinite?_eq_none_iff] at h
  obtain ⟨bad, hbad⟩ := Option.ne_none_iff_exists'.1 h
  have hfind := hbad
  rw [firstNonFinite?_eq_find?, Option.map_eq_some_iff] at hfind
  obtain ⟨x, hx, rfl⟩ := hfind
  refine ⟨x, List.mem_of_find?_eq_some hx, ?_, ?_⟩
  · simpa using List.find?_some hx
  · rw [literal, hbad]

/-- Floats that are not finite are refused. Every other number under the float rule is
written, and its decimal fits just where the number is below the limit of single precision:
past it, the literal is none of the type it is declared with. -/
theorem decimals_fit_iff (ty : Ty) (v : Value) :
    (∀ text, literal ty v = .ok text → ∃ lit, readLiteral? text.toList = some lit ∧
      List.Forall₂ FitsUnderLimit lit.decimals (floatRuled ty v)) ∧
    (¬ v.AllFinite → ∃ x ∈ v.floats, x.isFinite = false ∧
      literal ty v = .error (.unsupported (.float x) .notFinite)) := by
  constructor
  · intro text htext
    refine ⟨_, readLiteral?_literal htext, ?_⟩
    have hfinite := (literal_eq_ok_iff.1 htext).1
    rw [Literal.decimals, atoms_ofValue, List.filterMap_map]
    refine List.rel_filterMap (R := fun p q => p = q ∧ p ∈ ruled ty v) ?_ ?_
    · rintro ⟨base, element⟩ _ ⟨rfl, hmem⟩
      exact rel_decimal? base (firstNonFinite?_of_mem_ruled hfinite hmem)
    · exact List.forall₂_same.2 fun p hp => ⟨rfl, hp⟩
  · exact exists_literal_eq_notFinite

/-- The double `2 ^ 128`, past the limit of single precision. -/
def twoPow128 : Binary64 := .finite false ⟨1151 * Binary64.binade, by decide⟩

theorem toRat?_twoPow128 : twoPow128.toRat? = some (2 ^ 128) := by
  have hscale : Binary64.scale (1151 * Binary64.binade) = 1150 := by decide
  have hsignificand : Binary64.significand (1151 * Binary64.binade) = 2 ^ 52 := by decide
  rw [twoPow128, Binary64.toRat?_finite, hscale, hsignificand]
  norm_num [signed]

/-- A literal that fits beside one that does not, and a float that is refused. -/
theorem decimals_fit_iff_twoPow128 :
    (∃ lit, readLiteral?
        "[]float32\x7b-3.000000,340282366920938463463374607431768211456.000000\x7d".toList =
          some lit ∧
      List.Forall₂ FitsUnderLimit lit.decimals
        (floatRuled ⟨.float32, .vector⟩ (.seq [.int (-3), .float twoPow128]))) ∧
    ∃ x ∈ (Value.seq [.int 1, .float .nan]).floats, x.isFinite = false ∧
      literal ⟨.float32, .vector⟩ (.seq [.int 1, .float .nan]) =
        .error (.unsupported (.float x) .notFinite) := by
  refine ⟨(decimals_fit_iff _ _).1 _ (congrArg Except.ok ?_), (decimals_fit_iff _ _).2 ?_⟩
  · decide +kernel
  · simp [Value.AllFinite, Value.floats, Value.floatsEach, Binary64.isFinite]

/-- A literal can be past the range of the type it is declared with. -/
theorem not_forall_decimals_fit :
    ¬ ∀ (ty : Ty) (v : Value) (text : String) (lit : Literal) (d : ℚ),
      literal ty v = .ok text → readLiteral? text.toList = some lit → d ∈ lit.decimals →
        single.Fits d := by
  intro h
  obtain ⟨d, hd, hfits⟩ := exists_fitsUnderLimit (v := .float twoPow128) toRat?_twoPow128
  have hmem : d ∈ (Literal.ofValue ⟨.float32, .scalar⟩ (.float twoPow128)).decimals :=
    List.mem_filterMap.2 ⟨_, List.mem_singleton_self _, hd⟩
  have htext : literal ⟨.float32, .scalar⟩ (.float twoPow128) =
      .ok (scalarLiteral .float32 (.float twoPow128)) := rfl
  have hlt := hfits.1 (h _ _ _ _ d htext (readLiteral?_literal htext) hmem)
  norm_num at hlt

end GoCell.Go
