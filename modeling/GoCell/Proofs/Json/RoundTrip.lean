import GoCell.Proofs.Json.Container

/-!
Documents and their texts. Reading returns only documents whose members are in order,
whose numbers fit their kinds and whose nesting is within the allowance; the compact
text of every such document reads back as that document.
-/

namespace GoCell.Json

/-- A document that can be read with an allowance of `depth` containers. -/
inductive Readable : Nat → Json → Prop
  | null {depth : Nat} : Readable depth .null
  | bool {depth : Nat} (b : Bool) : Readable depth (.bool b)
  | integer {depth : Nat} {n : Int} (hlow : -2 ^ 63 ≤ n) (hhigh : n < 2 ^ 64) :
      Readable depth (.integer n)
  | real {depth : Nat} {x : Binary64} (hfinite : x.isFinite) : Readable depth (.real x)
  | string {depth : Nat} (s : String) : Readable depth (.string s)
  | array {depth : Nat} {items : List Json} (hitems : ∀ j ∈ items, Readable depth j) :
      Readable (depth + 1) (.array items)
  | object {depth : Nat} {members : List (String × Json)} (hordered : Ordered members)
      (hmembers : ∀ m ∈ members, Readable depth m.2) : Readable (depth + 1) (.object members)

/-! ### Reading by the first character -/

variable {depth : Nat}

theorem readValue_string (r : List Char) :
    readValue depth ('"' :: r) =
      (scanText r).map fun (cs, r) => (.string (String.ofList cs), r) := by
  rw [readValue.eq_1]
  rfl

theorem ne_of_startsNumber {c x : Char} (h : c = '-' ∨ c.isDigit)
    (hx : ¬(x = '-' ∨ x.isDigit)) : c ≠ x := by
  rintro rfl
  exact hx h

theorem isSpace_eq_false_of_startsNumber {c : Char} (h : c = '-' ∨ c.isDigit) :
    isSpace c = false := by
  have hne := fun x => ne_of_startsNumber (x := x) h
  simp [isSpace, hne ' ' (by decide), hne '\t' (by decide), hne '\n' (by decide),
    hne '\r' (by decide)]

theorem readValue_number {c : Char} (h : c = '-' ∨ c.isDigit) (r : List Char) :
    readValue depth (c :: r) = (do
      let (n, r) ← scanNumber .endInValue (c :: r)
      .ok (← n.toJson, r)) := by
  have hne := fun x => ne_of_startsNumber (x := x) h
  rw [readValue.eq_1, skipSpace_cons (isSpace_eq_false_of_startsNumber h)]
  simp only [hne 'n' (by decide), hne 't' (by decide), hne 'f' (by decide), hne '"' (by decide),
    h, if_true, if_false]

theorem readValue_array (r : List Char) :
    readValue (depth + 1) ('[' :: r) =
      (readItems (readValue depth) (r.length + 1) true r).map fun (js, r) => (.array js, r) := by
  rw [readValue.eq_1]
  rfl

/-- Reads a member from its colon on and sets it. -/
def readMember (depth : Nat) (members : List (String × Json)) (key : String) (l : List Char) :
    Except Fault (List (String × Json) × List Char) := do
  let (j, l) ← readValue depth (← scanColon l)
  .ok (setMember key j members, l)

theorem readValue_object (r : List Char) :
    readValue (depth + 1) ('\x7b' :: r) =
      (foldMembers (readMember depth) (r.length + 1) true [] r).map
        fun (ms, r) => (.object ms, r) := by
  rw [readValue.eq_1]
  rfl

/-! ### From a document to its text and back -/

theorem readMember_colon (l : List Char) (members : List (String × Json)) (key : String) :
    readMember depth members key (':' :: l) =
      (readValue depth l).map fun (j, l) => (setMember key j members, l) := by
  have hcolon : scanColon (':' :: l) = .ok l := rfl
  rw [readMember, hcolon]
  cases h : readValue depth l with
  | error f => simp [bind, Except.bind, h, Except.map]
  | ok p => simp [bind, Except.bind, h, Except.map]

theorem SpellsNumber.startsItem {l : List Char} {j : Json} (h : SpellsNumber l j) :
    StartsItem l := by
  obtain ⟨c, r, hl, hc⟩ := h.starts
  exact ⟨c, r, hl, isSpace_eq_false_of_startsNumber hc, ne_of_startsNumber hc (by decide)⟩

theorem SpellsNumber.readValue_append {l : List Char} {j : Json} (h : SpellsNumber l j)
    {rest : List Char} (hrest : EndsNumber rest) : readValue depth (l ++ rest) = .ok (j, rest) := by
  obtain ⟨c, r, rfl, hc⟩ := h.starts
  obtain ⟨n, hscan, hjson⟩ := h.reads rest hrest
  rw [List.cons_append] at hscan ⊢
  rw [readValue_number hc, hscan]
  simp [bind, Except.bind, hjson]

theorem startsItem_write {j : Json} (h : Readable depth j) : StartsItem (write j) := by
  cases h with
  | null => exact ⟨'n', ['u', 'l', 'l'], rfl, rfl, by decide⟩
  | bool b =>
      cases b with
      | true => exact ⟨'t', ['r', 'u', 'e'], rfl, rfl, by decide⟩
      | false => exact ⟨'f', ['a', 'l', 's', 'e'], rfl, rfl, by decide⟩
  | integer hlow hhigh => exact (spellsNumber_writeInt hlow hhigh).startsItem
  | @real _ x hfinite =>
      cases x with
      | finite negative index => exact (spellsNumber_writeReal negative index).startsItem
      | infinite negative => cases hfinite
      | nan => cases hfinite
  | string s => exact ⟨'"', _, rfl, rfl, by decide⟩
  | array _ => exact ⟨'[', _, rfl, rfl, by decide⟩
  | object _ _ => exact ⟨'\x7b', _, rfl, rfl, by decide⟩

/-- The compact text of a document reads back as the document. -/
theorem readValue_write_append {j : Json} (h : Readable depth j) {rest : List Char}
    (hrest : EndsNumber rest) : readValue depth (write j ++ rest) = .ok (j, rest) := by
  induction h generalizing rest with
  | null =>
      rw [readValue.eq_1]
      rfl
  | bool b =>
      rw [readValue.eq_1]
      cases b <;> rfl
  | integer hlow hhigh => exact (spellsNumber_writeInt hlow hhigh).readValue_append hrest
  | @real depth x hfinite =>
      cases x with
      | finite negative index =>
          exact (spellsNumber_writeReal negative index).readValue_append hrest
      | infinite negative => cases hfinite
      | nan => cases hfinite
  | string s =>
      have htext := scanText_flatMap_writeChar s.toList rest
      rw [write, writeString, List.cons_append, List.append_assoc, readValue_string]
      simp [htext, Except.map]
  | @array depth items hitems ih =>
      have hstart : ∀ j ∈ items, StartsItem (write j) := fun j hj => startsItem_write (hitems j hj)
      rw [write, writeEach_eq_map, List.cons_append, List.append_assoc, readValue_array,
        List.singleton_append, readItems_intercalate hstart (fun j hj _ => ih j hj) rfl]
      rfl
  | @object depth members hordered hmembers ih =>
      have hwrite : writeMembers members = members.map (memberChars write) :=
        writeMembers_eq_map members
      have hmember : ∀ m ∈ members, ∀ ms r, EndsNumber r →
          readMember depth ms m.1 (':' :: write m.2 ++ r) = .ok (setMember m.1 m.2 ms, r) := by
        intro m hm ms r hr
        rw [List.cons_append, readMember_colon, ih m hm hr]
        rfl
      rw [write, hwrite, List.cons_append, List.append_assoc, readValue_object,
        List.singleton_append, foldMembers_intercalate hmember [] rfl, foldl_setMember hordered]
      rfl

/-! ### From a text to a document -/

theorem readable_of_toJson {n : Literal} {j : Json} (h : n.toJson = .ok j) : Readable depth j := by
  have hpow : Nat.pow 2 63 = 2 ^ 63 ∧ Nat.pow 2 64 = 2 ^ 64 := ⟨rfl, rfl⟩
  unfold Literal.toJson at h
  dsimp only at h
  split at h
  · next hsmall =>
      cases h
      simp only [Bool.and_eq_true, decide_eq_true_eq] at hsmall
      exact .integer (by omega) (by omega)
  split at h
  · next hsmall =>
      cases h
      simp only [Bool.and_eq_true, decide_eq_true_eq] at hsmall
      exact .integer (by omega) (by omega)
  split at h
  · cases h
    exact .real rfl
  · cases h

/-- What a successful reading has read: a single value, an array or an object. -/
theorem readValue_cases {l rest : List Char} {j : Json} (h : readValue depth l = .ok (j, rest)) :
    (∀ depth, Readable depth j) ∨
      ∃ d r, depth = d + 1 ∧
        ((∃ items, j = .array items ∧
            readItems (readValue d) (r.length + 1) true r = .ok (items, rest)) ∨
          ∃ ms, j = .object ms ∧
            foldMembers (readMember d) (r.length + 1) true [] r = .ok (ms, rest)) := by
  rw [readValue.eq_1] at h
  split at h
  · cases h
  split at h
  · obtain ⟨_, -, heq⟩ := map_eq_ok_iff.1 h
    cases heq
    exact .inl fun _ => .null
  split at h
  · obtain ⟨_, -, heq⟩ := map_eq_ok_iff.1 h
    cases heq
    exact .inl fun _ => .bool true
  split at h
  · obtain ⟨_, -, heq⟩ := map_eq_ok_iff.1 h
    cases heq
    exact .inl fun _ => .bool false
  split at h
  · obtain ⟨_, -, heq⟩ := map_eq_ok_iff.1 h
    cases heq
    exact .inl fun _ => .string _
  split at h
  · obtain ⟨⟨n, _⟩, -, h⟩ := bind_eq_ok_iff.1 h
    obtain ⟨j, hjson, heq⟩ := bind_eq_ok_iff.1 h
    cases heq
    exact .inl fun _ => readable_of_toJson hjson
  split at h
  · cases depth with
    | zero => cases h
    | succ d =>
        obtain ⟨⟨items, _⟩, hread, heq⟩ := map_eq_ok_iff.1 h
        cases heq
        exact .inr ⟨d, _, rfl, .inl ⟨items, rfl, hread⟩⟩
  split at h
  · cases depth with
    | zero => cases h
    | succ d =>
        obtain ⟨⟨ms, _⟩, hread, heq⟩ := map_eq_ok_iff.1 h
        cases heq
        exact .inr ⟨d, _, rfl, .inr ⟨ms, rfl, hread⟩⟩
  · cases h

/-- Reading returns readable documents only. -/
theorem readable_of_readValue {l rest : List Char} {j : Json}
    (h : readValue depth l = .ok (j, rest)) : Readable depth j := by
  -- the allowance falls with every container, however long its text is
  induction depth using Nat.strongRecOn generalizing l j rest with
  | ind depth ih =>
      obtain hsingle | ⟨d, r, rfl, ⟨items, rfl, hread⟩ | ⟨ms, rfl, hread⟩⟩ := readValue_cases h
      · exact hsingle depth
      · refine .array fun j hj => ?_
        obtain ⟨l', rest', hitem⟩ := exists_of_mem_readItems hread j hj
        exact ih d (Nat.lt_succ_self d) hitem
      · have hinvariant : Ordered ms ∧ ∀ m ∈ ms, Readable d m.2 := by
          refine foldMembers_induction (P := fun ms => Ordered ms ∧ ∀ m ∈ ms, Readable d m.2)
            ?_ ⟨List.Pairwise.nil, by simp⟩ hread
          intro ms key l ms' rest' ⟨hordered, hmembers⟩ hmember
          obtain ⟨r', -, hmember⟩ := bind_eq_ok_iff.1 hmember
          obtain ⟨⟨j, _⟩, hvalue, heq⟩ := bind_eq_ok_iff.1 hmember
          cases heq
          refine ⟨ordered_setMember hordered, fun m hm => ?_⟩
          rcases mem_setMember hm with rfl | hm
          · exact ih d (Nat.lt_succ_self d) hvalue
          · exact hmembers m hm
        exact .object hinvariant.1 hinvariant.2

/-! ### Whole texts -/

theorem parse_render {j : Json} (h : Readable maxDepth j) : parse j.render = .ok j := by
  have hread := readValue_write_append h endsNumber_nil
  rw [List.append_nil] at hread
  rw [parse, render, String.toList_ofList, hread]
  rfl

theorem exists_readValue_of_parse {text : String} {j : Json} (h : parse text = .ok j) :
    ∃ rest, readValue maxDepth text.toList = .ok (j, rest) ∧ skipSpace rest = [] := by
  obtain ⟨⟨_, rest⟩, hread, hfinish⟩ := bind_eq_ok_iff.1 h
  obtain ⟨rfl, hspace⟩ := eq_of_finish_eq_ok hfinish
  exact ⟨rest, hread, hspace⟩

theorem readable_of_parse {text : String} {j : Json} (h : parse text = .ok j) :
    Readable maxDepth j := by
  obtain ⟨_, hread, -⟩ := exists_readValue_of_parse h
  exact readable_of_readValue hread

/-- The readable documents are those that some text reads as. -/
theorem exists_parse_eq_ok_iff {j : Json} : (∃ text, parse text = .ok j) ↔ Readable maxDepth j :=
  ⟨fun ⟨_, h⟩ => readable_of_parse h, fun h => ⟨j.render, parse_render h⟩⟩

end GoCell.Json
