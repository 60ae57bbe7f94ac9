import GoCell.Proofs.Value.Floats
import Mathlib.Data.List.Lex

/-!
When a value can be written under a type. Floats are looked at first, at any depth: the
first one that cannot be written, in the order of the positions in the value, is the one
that is refused, whatever the type. Only then does the shape of the type count.
-/

namespace GoCell

namespace Value

/-- The part of a value at a position: the indices that lead to it, from the outside in. -/
def at? : Value → List Nat → Option Value
  | v, [] => some v
  | .seq items, i :: path => items[i]?.bind fun v => v.at? path
  | _, _ :: _ => none

theorem at?_cons_seq (items : List Value) (i : Nat) (path : List Nat) :
    (Value.seq items).at? (i :: path) = items[i]?.bind fun v => v.at? path := rfl

/-- A single value has no parts but itself. -/
theorem at?_eq_some_iff_of_not_isSeq {v part : Value} (h : v.isSeq = false) {path : List Nat} :
    v.at? path = some part ↔ path = [] ∧ v = part := by
  cases path with
  | nil => simp [at?]
  | cons i path =>
      cases v with
      | seq items => cases h
      | _ => simp [at?]

/-- The floats of a value are those that stand somewhere in it. -/
theorem mem_floats_iff {v : Value} {x : Binary64} :
    x ∈ v.floats ↔ ∃ path, v.at? path = some (.float x) := by
  induction v using seqInduction with
  | single v hv =>
      simp only [at?_eq_some_iff_of_not_isSeq hv, exists_eq_left]
      cases v with
      | seq items => cases hv
      | float y => simp [floats, eq_comm]
      | _ => simp [floats]
  | seq items ih =>
      rw [floats, floatsEach_eq_flatMap, List.mem_flatMap]
      constructor
      · rintro ⟨v, hv, hx⟩
        obtain ⟨path, hpath⟩ := (ih v hv).1 hx
        obtain ⟨i, hi⟩ := List.mem_iff_getElem?.1 hv
        exact ⟨i :: path, by rw [at?_cons_seq, hi, Option.bind_some, hpath]⟩
      · rintro ⟨path, hpath⟩
        cases path with
        | nil => cases hpath
        | cons i path =>
            obtain ⟨v, hi, hpath⟩ := Option.bind_eq_some_iff.1 hpath
            have hv := List.mem_of_getElem? hi
            exact ⟨v, hv, (ih v hv).2 ⟨path, hpath⟩⟩

/-- Whether every float of a value is finite, at whatever position. -/
def FiniteThroughout (v : Value) : Prop :=
  ∀ path x, v.at? path = some (.float x) → x.isFinite

theorem finiteThroughout_iff {v : Value} : v.FiniteThroughout ↔ v.AllFinite := by
  simp only [FiniteThroughout, AllFinite, mem_floats_iff]
  exact ⟨fun h x hx => hx.elim fun path => h path x, fun h path x hpath => h x ⟨path, hpath⟩⟩

/-- The first float that is not finite. Positions are in lexicographic order: a part comes
before what stands to its right, with everything inside of it. -/
structure IsFirstNonFinite (v : Value) (path : List Nat) (x : Binary64) : Prop where
  at?_eq : v.at? path = some (.float x)
  not_finite : x.isFinite = false
  first : ∀ path' x', v.at? path' = some (.float x') → x'.isFinite = false →
    path' = path ∨ List.Lex (· < ·) path path'

theorem IsFirstNonFinite.unique {v : Value} {path path' : List Nat} {x x' : Binary64}
    (h : v.IsFirstNonFinite path x) (h' : v.IsFirstNonFinite path' x') : x = x' := by
  have hpath : path' = path := by
    rcases h.first path' x' h'.at?_eq h'.not_finite with heq | hlt
    · exact heq
    · rcases h'.first path x h.at?_eq h.not_finite with heq | hgt
      · exact heq.symm
      · exact absurd hgt (asymm_of (List.Lex (· < ·)) hlt)
  have hat := h.at?_eq
  rw [← hpath, h'.at?_eq] at hat
  cases hat
  rfl

/-- In a sequence it is the first one of the first element that has one. -/
theorem IsFirstNonFinite.seq {before after : List Value} {v : Value} {path : List Nat}
    {x : Binary64} (hbefore : ∀ b ∈ before, b.FiniteThroughout) (h : v.IsFirstNonFinite path x) :
    (Value.seq (before ++ v :: after)).IsFirstNonFinite (before.length :: path) x where
  at?_eq := by
    rw [at?_cons_seq, List.getElem?_append_right (Nat.le_refl _), Nat.sub_self]
    exact h.at?_eq
  not_finite := h.not_finite
  first path' x' hat hx' := by
    cases path' with
    | nil => cases hat
    | cons i path' =>
        obtain ⟨w, hi, hw⟩ := Option.bind_eq_some_iff.1 hat
        rcases Nat.lt_trichotomy i before.length with hlt | rfl | hgt
        · rw [List.getElem?_append_left hlt] at hi
          have hfinite := hbefore w (List.mem_of_getElem? hi) path' x' hw
          rw [hx'] at hfinite
          cases hfinite
        · rw [List.getElem?_append_right (Nat.le_refl _), Nat.sub_self] at hi
          cases hi
          rcases h.first path' x' hw hx' with rfl | hlt
          · exact .inl rfl
          · exact .inr (.cons hlt)
        · exact .inr (.rel hgt)

end Value

namespace Go

open Value (IsFirstNonFinite FiniteThroughout)

theorem firstNonFinite?_eq_none {v : Value} :
    firstNonFinite? v = none ↔ v.FiniteThroughout :=
  (firstNonFinite?_eq_none_iff v).trans Value.finiteThroughout_iff.symm

/-- The search finds a float, and it finds the first one. -/
theorem exists_isFirstNonFinite {v bad : Value} (h : firstNonFinite? v = some bad) :
    ∃ path x, bad = .float x ∧ v.IsFirstNonFinite path x := by
  induction v using Value.seqInduction generalizing bad with
  | single v hv =>
      cases v with
      | seq items => cases hv
      | float x =>
          rw [firstNonFinite?] at h
          split at h
          · cases h
          · next hx =>
            cases h
            refine ⟨[], x, rfl, rfl, by simpa using hx, fun path' x' hat _ => .inl ?_⟩
            exact ((Value.at?_eq_some_iff_of_not_isSeq rfl).1 hat).1
      | _ => cases h
  | seq items ih =>
      rw [firstNonFinite?, firstNonFiniteIn?_eq_findSome?, List.findSome?_eq_some_iff] at h
      obtain ⟨before, v, after, rfl, hv, hbefore⟩ := h
      obtain ⟨path, x, rfl, hfirst⟩ := ih v (by simp) hv
      exact ⟨before.length :: path, x, rfl,
        hfirst.seq fun b hb => firstNonFinite?_eq_none.1 (hbefore b hb)⟩

theorem firstNonFinite?_eq_some {v : Value} {path : List Nat} {x : Binary64}
    (h : v.IsFirstNonFinite path x) : firstNonFinite? v = some (.float x) := by
  cases hfind : firstNonFinite? v with
  | none =>
      have hfinite := firstNonFinite?_eq_none.1 hfind path x h.at?_eq
      rw [h.not_finite] at hfinite
      cases hfinite
  | some bad =>
      obtain ⟨path', x', rfl, hfirst⟩ := exists_isFirstNonFinite hfind
      rw [h.unique hfirst]

/-- Whether a type has the shape of a value: sequences are written as vectors or tables, and
nothing else is. -/
def HasShapeOf (ty : Ty) (v : Value) : Prop := ty.shape = .scalar ↔ v.isSeq = false

instance (ty : Ty) (v : Value) : Decidable (HasShapeOf ty v) :=
  inferInstanceAs (Decidable (_ ↔ _))

/-- What is said of a value that does not have the shape of its type. -/
def mismatch (v : Value) : Obstacle := if v.isSeq then .sequenceAsScalar else .scalarAsSequence

theorem exists_shapedLiteral {ty : Ty} {v : Value} (h : HasShapeOf ty v) :
    ∃ text, shapedLiteral ty v = .ok text := by
  obtain ⟨base, shape⟩ := ty
  cases v with
  | seq items =>
      cases shape with
      | scalar => cases h.1 rfl
      | _ => exact ⟨_, rfl⟩
  | _ =>
      cases shape with
      | scalar => exact ⟨_, rfl⟩
      | _ => cases h.2 rfl

theorem shapedLiteral_of_not_hasShapeOf {ty : Ty} {v : Value} (h : ¬HasShapeOf ty v) :
    shapedLiteral ty v = .error (.unsupported v (mismatch v)) := by
  obtain ⟨base, shape⟩ := ty
  cases v with
  | seq items =>
      cases shape with
      | scalar => rfl
      | _ => exact absurd (iff_of_false nofun nofun) h
  | _ =>
      cases shape with
      | scalar => exact absurd (iff_of_true rfl rfl) h
      | _ => rfl

theorem literal_of_finiteThroughout {ty : Ty} {v : Value} (h : v.FiniteThroughout) :
    literal ty v = shapedLiteral ty v := by
  rw [literal, firstNonFinite?_eq_none.2 h]

/-- A value is written under a type if all its floats are finite and it has the shape of the
type. If not, the first float at fault is named, whatever the type; and where there is none
it is the value itself. -/
theorem literal_decides (ty : Ty) (v : Value) :
    ((∃ text, literal ty v = .ok text) ↔ v.FiniteThroughout ∧ HasShapeOf ty v) ∧
      (¬v.FiniteThroughout → ∃ path x, v.IsFirstNonFinite path x ∧
        literal ty v = .error (.unsupported (.float x) .notFinite)) ∧
      (v.FiniteThroughout → ¬HasShapeOf ty v →
        literal ty v = .error (.unsupported v (mismatch v))) := by
  have hrefused : ¬v.FiniteThroughout → ∃ path x, v.IsFirstNonFinite path x ∧
      literal ty v = .error (.unsupported (.float x) .notFinite) := by
    intro hnot
    obtain ⟨bad, hbad⟩ := Option.ne_none_iff_exists'.1 fun hnone =>
      hnot (firstNonFinite?_eq_none.1 hnone)
    obtain ⟨path, x, rfl, hfirst⟩ := exists_isFirstNonFinite hbad
    exact ⟨path, x, hfirst, by rw [literal, hbad]⟩
  have hmismatch : v.FiniteThroughout → ¬HasShapeOf ty v →
      literal ty v = .error (.unsupported v (mismatch v)) := by
    intro hfinite hshape
    rw [literal_of_finiteThroughout hfinite, shapedLiteral_of_not_hasShapeOf hshape]
  refine ⟨⟨?_, ?_⟩, hrefused, hmismatch⟩
  · rintro ⟨text, htext⟩
    have hfinite : v.FiniteThroughout := by
      by_contra hnot
      obtain ⟨path, x, -, herror⟩ := hrefused hnot
      rw [herror] at htext
      cases htext
    refine ⟨hfinite, ?_⟩
    by_contra hshape
    rw [hmismatch hfinite hshape] at htext
    cases htext
  · rintro ⟨hfinite, hshape⟩
    rw [literal_of_finiteThroughout hfinite]
    exact exists_shapedLiteral hshape

/-- An infinity inside of a nested sequence, before a float that is not a number, which stands
less deep. -/
def overflowingTable : Value :=
  .seq [.seq [.text "a", .seq [.float (.zero false), .float (.infinite true)]], .float .nan]

/-- The infinity is named, although a sequence is no scalar; without such floats the sequence
is. -/
theorem literal_decides_overflowingTable :
    (¬overflowingTable.FiniteThroughout ∧
      literal ⟨.int, .scalar⟩ overflowingTable =
        .error (.unsupported (.float (.infinite true)) .notFinite)) ∧
    (Value.seq []).FiniteThroughout ∧ ¬HasShapeOf ⟨.int, .scalar⟩ (.seq []) ∧
      literal ⟨.int, .scalar⟩ (.seq []) = .error (.unsupported (.seq []) .sequenceAsScalar) := by
  have hnot : ¬overflowingTable.FiniteThroughout := fun h => nomatch h [1] .nan rfl
  have hempty : (Value.seq []).FiniteThroughout := by
    rw [Value.finiteThroughout_iff, Value.AllFinite]
    exact List.forall_mem_nil _
  obtain ⟨path, x, hfirst, herror⟩ := (literal_decides ⟨.int, .scalar⟩ overflowingTable).2.1 hnot
  have hinfinity : firstNonFinite? overflowingTable = some (.float (.infinite true)) := rfl
  have hx := firstNonFinite?_eq_some hfirst
  rw [hinfinity] at hx
  cases hx
  refine ⟨⟨hnot, herror⟩, hempty, by decide, ?_⟩
  exact (literal_decides ⟨.int, .scalar⟩ (.seq [])).2.2 hempty (by decide)

end Go

end GoCell
