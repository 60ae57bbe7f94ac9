import GoCell.Cell.Reader
import GoCell.Proofs.Json.RoundTrip
import GoCell.Proofs.Value.Floats

/-!
Values and their JSON texts. Every value with finite floats that is not nested too
deeply is written as a text that reads back as the same value, and what is read from
any text is such a value.
-/

namespace GoCell.Value

open Json

mutual

/-- How many containers are open at once in the JSON text of a value. A symbol is
written as an object. -/
def nesting : Value → Nat
  | .seq items => nestingEach items + 1
  | .symbol _ => 1
  | _ => 0

def nestingEach : List Value → Nat
  | [] => 0
  | v :: vs => max (nesting v) (nestingEach vs)

end

theorem nestingEach_le_iff {vs : List Value} {depth : Nat} :
    nestingEach vs ≤ depth ↔ ∀ v ∈ vs, v.nesting ≤ depth := by
  induction vs with
  | nil => simp [nestingEach]
  | cons v vs ih => rw [nestingEach, Nat.max_le, ih, List.forall_mem_cons]

/-- Sequences and symbols need an allowance of their own. -/
theorem readable_toJson {v : Value} (hfinite : v.AllFinite) {depth : Nat}
    (hdepth : v.nesting ≤ depth) : Readable depth v.toJson := by
  induction v using seqInduction generalizing depth with
  | single v hv =>
      cases v with
      | seq items => cases hv
      | int n => exact .integer n.le_toInt (n.toInt_lt.trans (by decide))
      | float x => exact .real (hfinite x (by simp [floats]))
      | text s => exact .string s
      | bool b => exact .bool b
      | nil => exact .null
      | symbol name =>
          obtain ⟨d, rfl⟩ : ∃ d, depth = d + 1 := ⟨depth - 1, by simp [nesting] at hdepth; omega⟩
          refine .object (List.pairwise_singleton _ _) ?_
          simpa using Readable.string name
  | seq items ih =>
      obtain ⟨d, rfl⟩ : ∃ d, depth = d + 1 := ⟨depth - 1, by simp [nesting] at hdepth; omega⟩
      have hitems := nestingEach_le_iff.1 (Nat.le_of_succ_le_succ hdepth)
      rw [toJson, toJsonEach_eq_map]
      refine .array fun j hj => ?_
      obtain ⟨v, hv, rfl⟩ := List.mem_map.1 hj
      exact ih v hv (allFinite_seq.1 hfinite v hv) (hitems v hv)

/-- No two values share a document. -/
theorem ofJson_toJson (v : Value) : ofJson v.toJson = v := by
  induction v using seqInduction with
  | single v hv =>
      cases v with
      | seq items => cases hv
      | int n => rw [toJson, ofJson, if_pos (fitsInt64_toInt n), Int64.ofInt_toInt]
      | _ => rfl
  | seq items ih =>
      have hitems : items.map (ofJson ∘ toJson) = items :=
        (List.map_congr_left (g := id) ih).trans (List.map_id items)
      rw [toJson, ofJson, toJsonEach_eq_map, ofJsonEach_eq_map, List.map_map, hitems]

/-- Integers that do not fit become doubles, and are far from the largest one. -/
theorem allFinite_ofJson {depth : Nat} {j : Json} (h : Readable depth j) :
    (ofJson j).AllFinite := by
  induction h with
  | @integer _ n hlow hhigh =>
      rw [ofJson]
      split
      · simp [AllFinite, floats]
      · simpa [AllFinite, floats] using Binary64.isFinite_ofInt (n := n) (by omega)
  | real hfinite => simpa [ofJson, AllFinite, floats] using hfinite
  | array hitems ih =>
      rw [ofJson, ofJsonEach_eq_map, allFinite_seq]
      exact List.forall_mem_map.2 ih
  | _ => simp [ofJson, AllFinite, floats]

theorem nesting_ofJson_le {depth : Nat} {j : Json} (h : Readable depth j) :
    (ofJson j).nesting ≤ depth := by
  induction h with
  | @integer _ n hlow hhigh =>
      rw [ofJson]
      split <;> exact Nat.zero_le _
  | array hitems ih =>
      rw [ofJson, ofJsonEach_eq_map, nesting]
      exact Nat.succ_le_succ (nestingEach_le_iff.2 (List.forall_mem_map.2 ih))
  | object hordered hmembers ih => exact Nat.succ_le_succ (Nat.zero_le _)
  | _ => exact Nat.zero_le _

theorem parse_render_toJson_of_nesting_le {v : Value} (hfinite : v.AllFinite)
    (hdepth : v.nesting ≤ maxDepth) : parse v.toJson.render = .ok v := by
  rw [parse, parse_render (readable_toJson hfinite hdepth), Except.map, ofJson_toJson]

/-- A value that is read can be written and read again. -/
theorem parse_render_toJson :
    (∀ v : Value, v.AllFinite → v.nesting ≤ 127 → parse v.toJson.render = .ok v) ∧
      ∀ (text : String) (v : Value), parse text = .ok v → parse v.toJson.render = .ok v := by
  refine ⟨fun v => parse_render_toJson_of_nesting_le, fun text v h => ?_⟩
  obtain ⟨j, hread, rfl⟩ := map_eq_ok_iff.1 h
  have hreadable := readable_of_parse hread
  exact parse_render_toJson_of_nesting_le (allFinite_ofJson hreadable)
    (nesting_ofJson_le hreadable)

/-- A negative zero, the least integer, characters that are escaped, and a symbol in a
row of its own. -/
def hostileValue : Value :=
  .seq [.float (.zero true), .int Int64.minValue, .text "a\"\\\n\x01é",
    .seq [.symbol "hline", .nil]]

/-- Numbers that are no 64-bit integers, and an object that is no symbol, with its
members out of order and one of them set twice. -/
def hostileText : String :=
  " [-0, 1.50e1, 18446744073709551615,\n\x7b\"b\": [], \"a\": \"\\u00e9\", \"b\": 2\x7d]"

theorem parse_render_toJson_hostileValue :
    parse hostileValue.toJson.render = .ok hostileValue ∧
      ∃ v, parse hostileText = .ok v ∧ parse v.toJson.render = .ok v := by
  have hfinite : hostileValue.AllFinite := by
    unfold AllFinite
    decide
  obtain ⟨v, hv⟩ := exists_eq_ok_of_isSome
    (show (parse hostileText).toOption.isSome by decide +kernel)
  exact ⟨parse_render_toJson.1 hostileValue hfinite (by decide), v, hv,
    parse_render_toJson.2 hostileText v hv⟩

end GoCell.Value
