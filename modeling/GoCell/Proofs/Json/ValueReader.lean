import GoCell.Proofs.Json.TokenReader

/-!
Reading the text of a value. What a reader makes of such a text, and whether it makes
anything of it, does not depend on what follows, and what follows is left as it is. So a
container is read entry by entry.
-/

namespace GoCell.Json

variable {α σ : Type}

/-- What a reader makes of a text. -/
def outcome (read : List Char → Scan α) (l : List Char) : Option α :=
  (read l).toOption.map Prod.fst

/-- Whether a reader makes the same of a text whatever follows, and leaves what follows. -/
def Settled (read : List Char → Scan α) (l : List Char) : Prop :=
  ∀ rest, EndsNumber rest → (read (l ++ rest)).toOption = (outcome read l).map (·, rest)

theorem outcome_eq {read : List Char → Scan α} {l : List Char} {o : Option α}
    (h : ∀ rest, EndsNumber rest → (read (l ++ rest)).toOption = o.map (·, rest)) :
    outcome read l = o := by
  have hread := h [] endsNumber_nil
  rw [List.append_nil] at hread
  rw [outcome, hread, Option.map_map]
  exact Option.map_id'

theorem settled_of_forall {read : List Char → Scan α} {l : List Char} {o : Option α}
    (h : ∀ rest, EndsNumber rest → (read (l ++ rest)).toOption = o.map (·, rest)) :
    Settled read l := by
  intro rest hrest
  rw [outcome_eq h, h rest hrest]

/-- A reader that is settled on the texts of values, and that takes no notice of space before
them. -/
structure Settles (read : List Char → Scan α) : Prop where
  of_skipSpace : ∀ l, read (skipSpace l) = read l
  settled : ∀ {l}, IsValue l → Settled read l

theorem Settles.append_spaces {read : List Char → Scan α} (h : Settles read) {space : List Char}
    (hspace : IsSpaces space) (l : List Char) : read (space ++ l) = read l := by
  rw [← h.of_skipSpace (space ++ l), skipSpace_append hspace, h.of_skipSpace]

theorem Settles.congr {read read' : List Char → Scan α} (h : Settles read)
    (heq : ∀ l, read' l = read l) : Settles read' := by
  rwa [show read' = read from funext heq]

/-! ### The next entry -/

/-- Space may follow a number. -/
theorem EndsNumber.append_spaces {space r : List Char} (hspace : IsSpaces space)
    (hr : EndsNumber r) : EndsNumber (space ++ r) := by
  cases space with
  | nil => exact hr
  | cons c space =>
      have hc := hspace c List.mem_cons_self
      simp only [isSpace, Bool.or_eq_true, beq_iff_eq] at hc
      rcases hc with ((rfl | rfl) | rfl) | rfl <;> simp [EndsNumber]

@[simp] theorem entryChars_nil (isFirst : Bool) : entryChars isFirst [] = [] := by
  cases isFirst <;> rfl

theorem entryChars_true_cons (l : List Char) (ls : List (List Char)) :
    entryChars true (l :: ls) = l ++ entryChars false ls := by
  simp only [entryChars, if_true, Bool.false_eq_true, if_false]
  exact Text.intercalate_cons_eq [','] l ls

theorem entryChars_false_cons (l : List Char) (ls : List (List Char)) :
    entryChars false (l :: ls) = ',' :: (l ++ entryChars false ls) := rfl

/-- After an entry there is space, and then a comma or the closing bracket. -/
theorem endsNumber_entryChars {space : List Char} (hspace : IsSpaces space) (ls : List (List Char))
    {close : Char} (hclose : close = ']' ∨ close = '\x7d') (rest : List Char) :
    EndsNumber (space ++ (entryChars false ls ++ close :: rest)) := by
  refine EndsNumber.append_spaces hspace ?_
  cases ls with
  | nil => exact endsNumber_of_mark (.inr hclose) rest
  | cons l ls => exact endsNumber_of_mark (.inl rfl) _

theorem StartsValue.skipSpace_append {c : Char} {r space : List Char} (h : StartsValue c r)
    (hspace : IsSpaces space) (l : List Char) :
    skipSpace (space ++ (c :: r ++ l)) = c :: r ++ l := by
  rw [Json.skipSpace_append hspace, List.cons_append, skipSpace_cons h.isSpace_eq_false]

variable {space : List Char} {e : Spaced (List Char)}

theorem nextItem_spaced_close (isFirst : Bool) (hspace : IsSpaces space) (rest : List Char) :
    nextItem isFirst (space ++ ']' :: rest) = .ok (.close rest) := by
  rw [nextItem, skipSpace_append hspace, skipSpace_cons rfl]
  rfl

theorem nextItem_spaced (isFirst : Bool) (hspace : IsSpaces space) (he : IsValue e.content)
    (es : List (Spaced (List Char))) (rest : List Char) :
    nextItem isFirst
        (space ++ (entryChars isFirst ((e :: es).map (Spaced.chars id)) ++ rest)) =
      .ok (.entry (e.content ++
        (e.after ++ (entryChars false (es.map (Spaced.chars id)) ++ rest)))) := by
  obtain ⟨c, r, hcontent, hstart⟩ := he.exists_cons
  have hskip := fun l => hstart.skipSpace_append e.before_spaces l
  cases isFirst with
  | true =>
      rw [List.map_cons, entryChars_true_cons, nextItem, Json.skipSpace_append hspace, Spaced.chars,
        id, hcontent]
      simp only [List.append_assoc] at hskip ⊢
      rw [hskip]
      simp [hstart.ne_mark.1]
  | false =>
      rw [List.map_cons, entryChars_false_cons, nextItem, Json.skipSpace_append hspace,
        Spaced.chars, id, hcontent, List.cons_append, skipSpace_cons rfl]
      simp only [List.append_assoc] at hskip ⊢
      simp only [hskip]
      simp [hstart.ne_mark.1]

/-! ### Arrays -/

theorem toOption_readItems {item : List Char → Scan α} {items : List (Spaced (List Char))}
    (hvalues : ∀ e ∈ items, IsValue e.content) (hitem : ∀ e ∈ items, Settled item e.content)
    {bound : Nat} (hbound : items.length < bound) (isFirst : Bool) {space : List Char}
    (hspace : IsSpaces space) (rest : List Char) :
    (readItems item bound isFirst
        (space ++ (entryChars isFirst (items.map (Spaced.chars id)) ++ ']' :: rest))).toOption =
      (items.mapM fun e => outcome item e.content).map (·, rest) := by
  induction items generalizing bound isFirst space with
  | nil =>
      obtain ⟨bound, rfl⟩ := Nat.exists_eq_add_one.2 (Nat.zero_lt_of_lt hbound)
      rw [List.map_nil, entryChars_nil, List.nil_append, readItems,
        nextItem_spaced_close isFirst hspace]
      rfl
  | cons e es ih =>
      obtain ⟨hvalue, hvalues⟩ := List.forall_mem_cons.1 hvalues
      obtain ⟨hread, hreads⟩ := List.forall_mem_cons.1 hitem
      obtain ⟨bound, rfl⟩ := Nat.exists_eq_add_one.2 (Nat.zero_lt_of_lt hbound)
      have hmore := ih hvalues hreads (show es.length < bound by simpa using hbound) false
        e.after_spaces
      have hends := endsNumber_entryChars e.after_spaces (es.map (Spaced.chars id)) (.inl rfl) rest
      rw [readItems, nextItem_spaced isFirst hspace hvalue, ok_bind, toOption_bind, hread _ hends,
        List.mapM_cons]
      cases outcome item e.content with
      | none => rfl
      | some a =>
          simp only [Option.map_some, Option.bind_some, toOption_bind, hmore]
          cases es.mapM fun e => outcome item e.content <;> rfl

/-- An array, from the character after its opening bracket on. -/
theorem toOption_readItems_arrayChars {item : List Char → Scan α}
    {items : List (Spaced (List Char))} (hvalues : ∀ e ∈ items, IsValue e.content)
    (hitem : ∀ e ∈ items, Settled item e.content) {space : List Char} (hspace : IsSpaces space)
    {l rest : List Char} (hl : l = arrayChars space items ++ rest) :
    (readItems item (l.length + 1) true l).toOption =
      (items.mapM fun e => outcome item e.content).map (·, rest) := by
  rw [arrayChars, List.append_assoc, List.append_assoc, List.singleton_append] at hl
  have hbound := length_le_length_closed (items.map (Spaced.chars id)) ']' rest
  rw [List.length_map] at hbound
  have hlength : l.length = space.length +
      ([','].intercalate (items.map (Spaced.chars id)) ++ ']' :: rest).length := by
    rw [hl, List.length_append]
    rfl
  rw [← toOption_readItems hvalues hitem (show items.length < l.length + 1 by omega) true hspace,
    ← hl]

/-! ### Objects -/

theorem nextMember_spaced_close (isFirst : Bool) (hspace : IsSpaces space) (rest : List Char) :
    nextMember isFirst (space ++ '\x7d' :: rest) = .ok (.close rest) := by
  rw [nextMember, skipSpace_append hspace, skipSpace_cons rfl]
  rfl

theorem toOption_nextMember (isFirst : Bool) (hspace : IsSpaces space) (m : Member)
    (ms : List Member) (rest : List Char) :
    (nextMember isFirst
        (space ++ (entryChars isFirst ((m :: ms).map Member.chars) ++ rest))).toOption =
      m.name?.map fun name => .entry (name,
        m.fromColon (m.value.after ++ (entryChars false (ms.map Member.chars) ++ rest))) := by
  have hkey := toOption_scanText m.key.content
    (m.fromColon (m.value.after ++ (entryChars false (ms.map Member.chars) ++ rest)))
  cases isFirst with
  | true =>
      rw [List.map_cons, entryChars_true_cons, List.append_assoc, m.chars_append, nextMember,
        Json.skipSpace_append hspace, Json.skipSpace_append m.key.before_spaces, skipSpace_cons rfl]
      simp [toOption_map, hkey, Member.name?, Function.comp_def]
  | false =>
      rw [List.map_cons, entryChars_false_cons, List.cons_append, List.append_assoc,
        m.chars_append, nextMember, Json.skipSpace_append hspace, skipSpace_cons rfl]
      simp only [Json.skipSpace_append m.key.before_spaces, skipSpace_cons (c := '"') rfl]
      simp [toOption_map, hkey, Member.name?, Function.comp_def]

theorem toOption_foldMembers {member : σ → String → List Char → Scan σ} {ms : List Member}
    {step : σ → Member → Option σ}
    (hstep : ∀ m ∈ ms, ∀ s rest, EndsNumber rest →
      (m.name?.bind fun name => (member s name (m.fromColon rest)).toOption) =
        (step s m).map (·, rest))
    {bound : Nat} (hbound : ms.length < bound) (isFirst : Bool) (s : σ) {space : List Char}
    (hspace : IsSpaces space) (rest : List Char) :
    (foldMembers member bound isFirst s
        (space ++ (entryChars isFirst (ms.map Member.chars) ++ '\x7d' :: rest))).toOption =
      (ms.foldlM step s).map (·, rest) := by
  induction ms generalizing bound isFirst s space with
  | nil =>
      obtain ⟨bound, rfl⟩ := Nat.exists_eq_add_one.2 (Nat.zero_lt_of_lt hbound)
      rw [List.map_nil, entryChars_nil, List.nil_append, foldMembers,
        nextMember_spaced_close isFirst hspace]
      rfl
  | cons m ms ih =>
      obtain ⟨hread, hreads⟩ := List.forall_mem_cons.1 hstep
      obtain ⟨bound, rfl⟩ := Nat.exists_eq_add_one.2 (Nat.zero_lt_of_lt hbound)
      have hmore := fun s => ih hreads (show ms.length < bound by simpa using hbound) false s
        m.value.after_spaces
      have hends := endsNumber_entryChars m.value.after_spaces (ms.map Member.chars) (.inr rfl) rest
      have hread := hread s _ hends
      rw [foldMembers, toOption_bind, toOption_nextMember isFirst hspace, Option.bind_map,
        List.foldlM_cons]
      cases hname : m.name? with
      | none =>
          rw [hname] at hread
          cases hs : step s m with
          | none => rfl
          | some s' =>
              rw [hs] at hread
              cases hread
      | some name =>
          rw [hname, Option.bind_some] at hread
          simp only [Option.bind_some, Function.comp_apply, toOption_bind, hread]
          cases step s m with
          | none => rfl
          | some s' => exact hmore s'

/-- An object, from the character after its opening bracket on. -/
theorem toOption_foldMembers_objectChars {member : σ → String → List Char → Scan σ}
    {ms : List Member} {step : σ → Member → Option σ}
    (hstep : ∀ m ∈ ms, ∀ s rest, EndsNumber rest →
      (m.name?.bind fun name => (member s name (m.fromColon rest)).toOption) =
        (step s m).map (·, rest))
    {space : List Char} (hspace : IsSpaces space) (s : σ) {l rest : List Char}
    (hl : l = objectChars space ms ++ rest) :
    (foldMembers member (l.length + 1) true s l).toOption = (ms.foldlM step s).map (·, rest) := by
  rw [objectChars, List.append_assoc, List.append_assoc, List.singleton_append] at hl
  have hbound := length_le_length_closed (ms.map Member.chars) '\x7d' rest
  rw [List.length_map] at hbound
  have hlength : l.length = space.length +
      ([','].intercalate (ms.map Member.chars) ++ '\x7d' :: rest).length := by
    rw [hl, List.length_append]
    rfl
  rw [← toOption_foldMembers hstep (show ms.length < l.length + 1 by omega) true s hspace, ← hl]

theorem scanColon_fromColon (m : Member) (rest : List Char) :
    scanColon (m.fromColon rest) = .ok (m.value.before ++ (m.value.content ++ rest)) := by
  rw [Member.fromColon, scanColon, skipSpace_append m.key.after_spaces, skipSpace_cons rfl]
  rfl

/-! ### Documents -/

theorem stringChars_append (parts : List StringPart) (rest : List Char) :
    stringChars parts ++ rest = '"' :: (parts.flatMap StringPart.chars ++ '"' :: rest) := by
  simp [stringChars]

theorem readValue_skipSpace (depth : Nat) (l : List Char) :
    readValue depth (skipSpace l) = readValue depth l := by
  rw [readValue.eq_1, readValue.eq_1, skipSpace_skipSpace]

/-- What a member makes of the members read so far, if it can be read. -/
def memberStep (depth : Nat) (ms : List (String × Json)) (m : Member) :
    Option (List (String × Json)) :=
  m.name?.bind fun name =>
    (outcome (readValue depth) m.value.content).map fun j => setMember name j ms

theorem toOption_readMember {depth : Nat} {m : Member}
    (h : Settled (readValue depth) m.value.content) (ms : List (String × Json)) {rest : List Char}
    (hrest : EndsNumber rest) :
    (m.name?.bind fun name => (readMember depth ms name (m.fromColon rest)).toOption) =
      (memberStep depth ms m).map (·, rest) := by
  have hvalue : readValue depth (m.value.before ++ (m.value.content ++ rest)) =
      readValue depth (m.value.content ++ rest) := by
    rw [← readValue_skipSpace, skipSpace_append m.value.before_spaces, readValue_skipSpace]
  cases hname : m.name? with
  | none => simp [memberStep, hname]
  | some name =>
      simp only [memberStep, hname, Option.bind_some, readMember, scanColon_fromColon, ok_bind,
        hvalue, toOption_bind, h rest hrest]
      cases outcome (readValue depth) m.value.content <;> rfl

theorem toOption_readValue_stringChars (depth : Nat) (parts : List StringPart) (rest : List Char) :
    (readValue depth (stringChars parts ++ rest)).toOption =
      ((StringPart.decode parts).map fun cs => .string (String.ofList cs)).map (·, rest) := by
  rw [stringChars_append, readValue_string, toOption_map, toOption_scanText, Option.map_map,
    Option.map_map]
  rfl

theorem toOption_readValue_arrayChars {depth : Nat} {items : List (Spaced (List Char))}
    (hvalues : ∀ e ∈ items, IsValue e.content)
    (hitems : ∀ e ∈ items, Settled (readValue depth) e.content) {space : List Char}
    (hspace : IsSpaces space) (rest : List Char) :
    (readValue (depth + 1) ('[' :: arrayChars space items ++ rest)).toOption =
      ((items.mapM fun e => outcome (readValue depth) e.content).map .array).map (·, rest) := by
  rw [List.cons_append, readValue_array, toOption_map,
    toOption_readItems_arrayChars hvalues hitems hspace rfl, Option.map_map, Option.map_map]
  rfl

theorem toOption_readValue_objectChars {depth : Nat} {members : List Member}
    (hmembers : ∀ m ∈ members, Settled (readValue depth) m.value.content) {space : List Char}
    (hspace : IsSpaces space) (rest : List Char) :
    (readValue (depth + 1) ('\x7b' :: objectChars space members ++ rest)).toOption =
      ((members.foldlM (memberStep depth) []).map .object).map (·, rest) := by
  rw [List.cons_append, readValue_object, toOption_map,
    toOption_foldMembers_objectChars
      (fun m hm ms _ hrest => toOption_readMember (hmembers m hm) ms hrest) hspace [] rfl,
    Option.map_map, Option.map_map]
  rfl

/-- No container is opened without an allowance. -/
theorem toOption_readValue_zero {c : Char} (h : c = '[' ∨ c = '\x7b') (r : List Char) :
    (readValue 0 (c :: r)).toOption = none := by
  rcases h with rfl | rfl <;>
    · rw [readValue.eq_1]
      rfl

theorem settled_readValue {l : List Char} (h : IsValue l) (depth : Nat) :
    Settled (readValue depth) l := by
  -- the entries of a container are read with a smaller allowance than the container
  induction h generalizing depth with
  | null =>
      refine settled_of_forall (o := some .null) fun rest _ => ?_
      rw [readValue.eq_1]
      rfl
  | true =>
      refine settled_of_forall (o := some (.bool .true)) fun rest _ => ?_
      rw [readValue.eq_1]
      rfl
  | false =>
      refine settled_of_forall (o := some (.bool .false)) fun rest _ => ?_
      rw [readValue.eq_1]
      rfl
  | number hnumber =>
      obtain ⟨n, hn⟩ := hnumber.exists_scanNumber_eq
      obtain ⟨c, r, rfl, hc⟩ := hnumber.exists_cons
      refine settled_of_forall (o := n.toJson.toOption) fun rest hrest => ?_
      have hscan := hn .endInValue rest hrest
      rw [List.cons_append] at hscan ⊢
      rw [readValue_number hc, hscan, ok_bind, toOption_bind]
      cases n.toJson <;> rfl
  | string parts =>
      exact settled_of_forall fun rest _ => toOption_readValue_stringChars depth parts rest
  | array hspace hitems ih =>
      cases depth with
      | zero =>
          exact settled_of_forall (o := none) fun rest _ => toOption_readValue_zero (.inl rfl) _
      | succ depth =>
          exact settled_of_forall fun rest _ =>
            toOption_readValue_arrayChars hitems (fun e he => ih e he depth) hspace rest
  | object hspace hmembers ih =>
      cases depth with
      | zero =>
          exact settled_of_forall (o := none) fun rest _ => toOption_readValue_zero (.inr rfl) _
      | succ depth =>
          exact settled_of_forall fun rest _ =>
            toOption_readValue_objectChars (fun m hm => ih m hm depth) hspace rest

theorem settles_readValue (depth : Nat) : Settles (readValue depth) :=
  ⟨readValue_skipSpace depth, fun h => settled_readValue h depth⟩

section Outcome

variable {depth : Nat}

theorem outcome_readValue_stringChars (parts : List StringPart) :
    outcome (readValue depth) (stringChars parts) =
      (StringPart.decode parts).map fun cs => .string (String.ofList cs) :=
  outcome_eq fun rest _ => toOption_readValue_stringChars depth parts rest

theorem outcome_readValue_arrayChars {items : List (Spaced (List Char))}
    (hvalues : ∀ e ∈ items, IsValue e.content) (hspace : IsSpaces space) :
    outcome (readValue (depth + 1)) ('[' :: arrayChars space items) =
      (items.mapM fun e => outcome (readValue depth) e.content).map .array :=
  outcome_eq fun rest _ => toOption_readValue_arrayChars hvalues
    (fun e he => settled_readValue (hvalues e he) depth) hspace rest

theorem outcome_readValue_objectChars {members : List Member}
    (hvalues : ∀ m ∈ members, IsValue m.value.content) (hspace : IsSpaces space) :
    outcome (readValue (depth + 1)) ('\x7b' :: objectChars space members) =
      (members.foldlM (memberStep depth) []).map .object :=
  outcome_eq fun rest _ => toOption_readValue_objectChars
    (fun m hm => settled_readValue (hvalues m hm) depth) hspace rest

theorem outcome_readValue_zero {c : Char} (h : c = '[' ∨ c = '\x7b') (r : List Char) :
    outcome (readValue 0) (c :: r) = none := by
  rw [outcome, toOption_readValue_zero h, Option.map_none]

end Outcome

end GoCell.Json
