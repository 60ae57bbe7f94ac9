import GoCell.Json.Reader
import GoCell.Proofs.Json.TokenText
import GoCell.Proofs.Outcome
import Mathlib.Data.String.Basic

/-!
The containers of JSON. What is written for the entries of an array or an object is
read back entry by entry, and what holds of every entry that is read holds of the
container.
-/

namespace GoCell.Json

open Text

theorem skipSpace_cons {c : Char} (h : isSpace c = false) (r : List Char) :
    skipSpace (c :: r) = c :: r := by
  simp [skipSpace, h]

theorem eq_of_finish_eq_ok {α : Type} {a b : α} {rest : List Char}
    (h : finish (a, rest) = .ok b) : a = b ∧ skipSpace rest = [] := by
  unfold finish at h
  dsimp only at h
  split at h
  · next hspace =>
    cases h
    exact ⟨rfl, List.isEmpty_iff.1 hspace⟩
  · cases h

theorem endsNumber_of_mark {c : Char} (h : c = ',' ∨ c = ']' ∨ c = '\x7d') (r : List Char) :
    EndsNumber (c :: r) := by
  rcases h with rfl | rfl | rfl <;> simp [EndsNumber]

/-- After an entry there is a comma or the closing bracket. -/
theorem endsNumber_following {α : Type} (entries : List α) (text : α → List Char) {close : Char}
    (hclose : close = ']' ∨ close = '\x7d') (rest : List Char) :
    EndsNumber (entries.flatMap (fun a => ',' :: text a) ++ close :: rest) := by
  cases entries with
  | nil => exact endsNumber_of_mark (.inr hclose) rest
  | cons a as =>
      rw [List.flatMap_cons, List.cons_append, List.cons_append]
      exact endsNumber_of_mark (.inl rfl) _

/-- The length of a container bounds its entries. -/
theorem length_le_length_closed (entries : List (List Char)) (close : Char) (rest : List Char) :
    entries.length ≤ ([','].intercalate entries ++ close :: rest).length := by
  have := length_le_length_intercalate ',' entries
  simp only [List.length_append, List.length_cons]
  omega

/-! ### Arrays -/

/-- Whether a text can stand where an element of an array is expected. -/
def StartsItem (l : List Char) : Prop := ∃ c r, l = c :: r ∧ isSpace c = false ∧ c ≠ ']'

theorem nextItem_close (isFirst : Bool) (rest : List Char) :
    nextItem isFirst (']' :: rest) = .ok (.close rest) := rfl

theorem nextItem_first {l : List Char} (h : StartsItem l) (rest : List Char) :
    nextItem true (l ++ rest) = .ok (.entry (l ++ rest)) := by
  obtain ⟨c, r, rfl, hspace, hclose⟩ := h
  rw [List.cons_append, nextItem, skipSpace_cons hspace]
  simp [hclose]

theorem nextItem_comma {l : List Char} (h : StartsItem l) (rest : List Char) :
    nextItem false (',' :: (l ++ rest)) = .ok (.entry (l ++ rest)) := by
  obtain ⟨c, r, rfl, hspace, hclose⟩ := h
  rw [List.cons_append, nextItem, skipSpace_cons rfl]
  simp [skipSpace_cons hspace, hclose]

section Items

variable {α : Type} {item : List Char → Scan α} {text : α → List Char} {as : List α}

theorem readItems_following (hstart : ∀ a ∈ as, StartsItem (text a))
    (hitem : ∀ a ∈ as, ∀ rest, EndsNumber rest → item (text a ++ rest) = .ok (a, rest))
    {bound : Nat} (hbound : as.length < bound) (rest : List Char) :
    readItems item bound false (as.flatMap (fun a => ',' :: text a) ++ ']' :: rest) =
      .ok (as, rest) := by
  induction as generalizing bound with
  | nil =>
      obtain ⟨bound, rfl⟩ := Nat.exists_eq_add_one.2 (Nat.zero_lt_of_lt hbound)
      simp [readItems, nextItem_close, bind, Except.bind]
  | cons a as ih =>
      obtain ⟨hstart, hstarts⟩ := List.forall_mem_cons.1 hstart
      obtain ⟨hitem, hitems⟩ := List.forall_mem_cons.1 hitem
      obtain ⟨bound, rfl⟩ := Nat.exists_eq_add_one.2 (Nat.zero_lt_of_lt hbound)
      have hmore := ih hstarts hitems (show as.length < bound by simpa using hbound)
      have hread := hitem _ (endsNumber_following as text (.inl rfl) rest)
      rw [List.flatMap_cons, List.cons_append, List.cons_append, List.append_assoc, readItems,
        nextItem_comma hstart]
      simp only [bind, Except.bind, hread, hmore]

/-- An array's elements, joined by commas and closed, read back. -/
theorem readItems_intercalate (hstart : ∀ a ∈ as, StartsItem (text a))
    (hitem : ∀ a ∈ as, ∀ rest, EndsNumber rest → item (text a ++ rest) = .ok (a, rest))
    {l rest : List Char} (hl : l = [','].intercalate (as.map text) ++ ']' :: rest) :
    readItems item (l.length + 1) true l = .ok (as, rest) := by
  -- the bound comes from the text, the induction below needs it apart from the text
  have hbound := length_le_length_closed (as.map text) ']' rest
  rw [← hl, List.length_map] at hbound
  generalize l.length = bound at hbound
  rw [hl]
  cases as with
  | nil => simp [readItems, nextItem_close, bind, Except.bind]
  | cons a as =>
      obtain ⟨hstart, hstarts⟩ := List.forall_mem_cons.1 hstart
      obtain ⟨hitem, hitems⟩ := List.forall_mem_cons.1 hitem
      have hmore := readItems_following hstarts hitems
        (show as.length < bound by simpa [Nat.succ_le_iff] using hbound)
      have hread := hitem _ (endsNumber_following as text (.inl rfl) rest)
      have hjoin : [','].intercalate ((a :: as).map text) ++ ']' :: rest =
          text a ++ (as.flatMap (fun a => ',' :: text a) ++ ']' :: rest) := by
        rw [List.map_cons, intercalate_cons_eq, List.append_assoc, List.flatMap_map]
        rfl
      rw [hjoin, readItems, nextItem_first hstart]
      simp only [bind, Except.bind, hread, hmore]

/-- Every element of an array was read by the reader of elements. -/
theorem exists_of_mem_readItems {bound : Nat} {isFirst : Bool} {l rest : List Char}
    (h : readItems item bound isFirst l = .ok (as, rest)) :
    ∀ a ∈ as, ∃ l' rest', item l' = .ok (a, rest') := by
  induction bound generalizing isFirst l as rest with
  | zero => cases h
  | succ bound ih =>
      rw [readItems, bind_eq_ok_iff] at h
      obtain ⟨next, -, h⟩ := h
      cases next with
      | close r =>
          cases h
          simp
      | entry r =>
          simp only [bind_eq_ok_iff] at h
          obtain ⟨⟨a, l'⟩, hitem, ⟨as', rest'⟩, hmore, heq⟩ := h
          cases heq
          exact List.forall_mem_cons.2 ⟨⟨r, l', hitem⟩, ih hmore⟩

end Items

/-! ### Objects -/

theorem nextMember_close (isFirst : Bool) (rest : List Char) :
    nextMember isFirst ('\x7d' :: rest) = .ok (.close rest) := rfl

theorem nextMember_first (key : String) (rest : List Char) :
    nextMember true (writeString key ++ rest) = .ok (.entry (key, rest)) := by
  have hkey := scanText_flatMap_writeChar key.toList rest
  rw [writeString, List.cons_append, List.append_assoc, nextMember, skipSpace_cons rfl]
  simp [hkey, Except.map]

theorem nextMember_comma (key : String) (rest : List Char) :
    nextMember false (',' :: (writeString key ++ rest)) = .ok (.entry (key, rest)) := by
  have hkey := scanText_flatMap_writeChar key.toList rest
  rw [writeString, List.cons_append, List.append_assoc, nextMember, skipSpace_cons rfl]
  simp [skipSpace_cons, isSpace, hkey, Except.map]

section Members

variable {σ β : Type} {member : σ → String → List Char → Scan σ} {text : β → List Char}
  {next : σ → String × β → σ} {ms : List (String × β)}

/-- The text of a member. -/
def memberChars (text : β → List Char) (m : String × β) : List Char :=
  writeString m.1 ++ ':' :: text m.2

theorem foldMembers_following
    (hmember : ∀ m ∈ ms, ∀ s rest, EndsNumber rest →
      member s m.1 (':' :: text m.2 ++ rest) = .ok (next s m, rest))
    {bound : Nat} (hbound : ms.length < bound) (s : σ) (rest : List Char) :
    foldMembers member bound false s
        (ms.flatMap (fun m => ',' :: memberChars text m) ++ '\x7d' :: rest) =
      .ok (ms.foldl next s, rest) := by
  induction ms generalizing bound s with
  | nil =>
      obtain ⟨bound, rfl⟩ := Nat.exists_eq_add_one.2 (Nat.zero_lt_of_lt hbound)
      simp [foldMembers, nextMember_close, bind, Except.bind]
  | cons m ms ih =>
      obtain ⟨hmember, hmembers⟩ := List.forall_mem_cons.1 hmember
      obtain ⟨bound, rfl⟩ := Nat.exists_eq_add_one.2 (Nat.zero_lt_of_lt hbound)
      have hmore := ih hmembers (show ms.length < bound by simpa using hbound) (next s m)
      have hread := hmember s _ (endsNumber_following ms (memberChars text) (.inr rfl) rest)
      rw [List.flatMap_cons, List.cons_append, List.cons_append, memberChars, List.append_assoc,
        List.append_assoc, foldMembers, nextMember_comma]
      simp only [bind, Except.bind, hread, hmore, List.foldl_cons]

/-- An object's members, joined by commas and closed, read back. -/
theorem foldMembers_intercalate
    (hmember : ∀ m ∈ ms, ∀ s rest, EndsNumber rest →
      member s m.1 (':' :: text m.2 ++ rest) = .ok (next s m, rest))
    (s : σ) {l rest : List Char}
    (hl : l = [','].intercalate (ms.map (memberChars text)) ++ '\x7d' :: rest) :
    foldMembers member (l.length + 1) true s l = .ok (ms.foldl next s, rest) := by
  have hbound := length_le_length_closed (ms.map (memberChars text)) '\x7d' rest
  rw [← hl, List.length_map] at hbound
  generalize l.length = bound at hbound
  rw [hl]
  cases ms with
  | nil => simp [foldMembers, nextMember_close, bind, Except.bind]
  | cons m ms =>
      obtain ⟨hmember, hmembers⟩ := List.forall_mem_cons.1 hmember
      have hmore := foldMembers_following hmembers
        (show ms.length < bound by simpa [Nat.succ_le_iff] using hbound) (next s m) rest
      have hread := hmember s _ (endsNumber_following ms (memberChars text) (.inr rfl) rest)
      have hjoin : [','].intercalate ((m :: ms).map (memberChars text)) ++ '\x7d' :: rest =
          writeString m.1 ++ (':' :: text m.2 ++
            (ms.flatMap (fun m => ',' :: memberChars text m) ++ '\x7d' :: rest)) := by
        rw [List.map_cons, intercalate_cons_eq, List.append_assoc, List.flatMap_map, memberChars,
          List.append_assoc]
        rfl
      rw [hjoin, foldMembers, nextMember_first]
      simp only [bind, Except.bind, hread, hmore, List.foldl_cons]

/-- What every member preserves holds of the object. -/
theorem foldMembers_induction {P : σ → Prop}
    (hstep : ∀ s key l s' rest, P s → member s key l = .ok (s', rest) → P s')
    {bound : Nat} {isFirst : Bool} {s s' : σ} {l rest : List Char} (hs : P s)
    (h : foldMembers member bound isFirst s l = .ok (s', rest)) : P s' := by
  induction bound generalizing isFirst s l with
  | zero => cases h
  | succ bound ih =>
      rw [foldMembers, bind_eq_ok_iff] at h
      obtain ⟨next, -, h⟩ := h
      cases next with
      | close r =>
          cases h
          exact hs
      | entry m =>
          obtain ⟨key, r⟩ := m
          simp only [bind_eq_ok_iff] at h
          obtain ⟨⟨s₁, l'⟩, hmember, hmore⟩ := h
          exact ih (hstep s key r s₁ l' hs hmember) hmore

end Members

/-! ### The order of members -/

/-- Whether the keys of members increase, as they do in a document. -/
def Ordered {β : Type} (members : List (String × β)) : Prop :=
  members.Pairwise fun m m' => m.1 < m'.1

section Order

variable {β : Type} {key : String} {value : β} {members : List (String × β)}

theorem mem_setMember {m : String × β} (h : m ∈ setMember key value members) :
    m = (key, value) ∨ m ∈ members := by
  fun_induction setMember key value members with
  | case1 => simpa using h
  | case2 k v rest _ => simpa using h
  | case3 v rest _ =>
      rcases List.mem_cons.1 h with h | h
      · exact .inl h
      · exact .inr (List.mem_cons_of_mem _ h)
  | case4 k v rest _ _ ih =>
      rcases List.mem_cons.1 h with h | h
      · exact .inr (h ▸ List.mem_cons_self)
      · exact (ih h).imp_right (List.mem_cons_of_mem _)

theorem ordered_setMember (h : Ordered members) : Ordered (setMember key value members) := by
  fun_induction setMember key value members with
  | case1 => simp [Ordered]
  | case2 k v rest hlt =>
      refine List.pairwise_cons.2 ⟨?_, h⟩
      intro m hm
      rcases List.mem_cons.1 hm with rfl | hm
      · exact hlt
      · exact hlt.trans ((List.pairwise_cons.1 h).1 m hm)
  | case3 v rest _ => exact List.pairwise_cons.2 (List.pairwise_cons.1 h)
  | case4 k v rest hlt hne ih =>
      obtain ⟨hfirst, hrest⟩ := List.pairwise_cons.1 h
      refine List.pairwise_cons.2 ⟨?_, ih hrest⟩
      intro m hm
      rcases mem_setMember hm with rfl | hm
      · exact lt_of_le_of_ne (not_lt.1 hlt) (Ne.symm hne)
      · exact hfirst m hm

/-- A key above all others comes last. -/
theorem setMember_of_forall_lt (h : ∀ m ∈ members, m.1 < key) :
    setMember key value members = members ++ [(key, value)] := by
  induction members with
  | nil => rfl
  | cons m members ih =>
      obtain ⟨hfirst, hrest⟩ := List.forall_mem_cons.1 h
      rw [setMember, if_neg hfirst.asymm, if_neg hfirst.ne', ih hrest, List.cons_append]

theorem foldl_setMember_append {done todo : List (String × β)} (h : Ordered (done ++ todo)) :
    todo.foldl (fun ms m => setMember m.1 m.2 ms) done = done ++ todo := by
  induction todo generalizing done with
  | nil => simp
  | cons m todo ih =>
      have hlast : ∀ m' ∈ done, m'.1 < m.1 := fun m' hm' =>
        (List.pairwise_append.1 h).2.2 m' hm' m List.mem_cons_self
      rw [List.append_cons] at h
      rw [List.foldl_cons, setMember_of_forall_lt hlast, ih h, ← List.append_cons]

/-- Members in order are set one after the other. -/
theorem foldl_setMember (h : Ordered members) :
    members.foldl (fun ms m => setMember m.1 m.2 ms) [] = members :=
  foldl_setMember_append (show Ordered ([] ++ members) from h)

end Order

end GoCell.Json
