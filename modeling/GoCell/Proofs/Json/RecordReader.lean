import GoCell.Json.Record
import GoCell.Proofs.Json.SkippedValue

/-!
The readers of data of a given form. Each of them settles on the texts of values, if the
readers that it is made of do; so a record is read member by member, and what a member
contributes can be seen from its text alone.
-/

namespace GoCell.Json

variable {α β σ : Type} {depth : Nat}

/-! ### Scalars -/

theorem settles_readString : Settles readString where
  of_skipSpace l := by rw [readString, readString, skipSpace_skipSpace]
  settled h := by
    obtain ⟨c, r, rfl, hstart⟩ := h.exists_cons
    by_cases hc : c = '"'
    · subst hc
      obtain ⟨parts, rfl⟩ := hstart.string rfl
      refine settled_of_forall (o := (StringPart.decode parts).map String.ofList) fun rest _ => ?_
      rw [List.cons_append, List.append_assoc, List.singleton_append, readString,
        skipSpace_cons rfl]
      simp only [if_true, toOption_map, toOption_scanText, Option.map_map]
      rfl
    · refine settled_of_forall (o := none) fun rest _ => ?_
      rw [List.cons_append, readString, skipSpace_cons hstart.isSpace_eq_false]
      simp only [hc, if_false]
      rfl

theorem settles_readBool : Settles readBool where
  of_skipSpace l := by rw [readBool, readBool, skipSpace_skipSpace]
  settled h := by
    obtain ⟨c, r, rfl, hstart⟩ := h.exists_cons
    by_cases htrue : c = 't'
    · subst htrue
      rw [hstart.true rfl]
      exact settled_of_forall (o := some true) fun rest _ => rfl
    · by_cases hfalse : c = 'f'
      · subst hfalse
        rw [hstart.false rfl]
        exact settled_of_forall (o := some false) fun rest _ => rfl
      · refine settled_of_forall (o := none) fun rest _ => ?_
        rw [List.cons_append, readBool, skipSpace_cons hstart.isSpace_eq_false]
        simp only [htrue, hfalse, if_false]
        rfl

theorem settles_readOption {read : List Char → Scan α} (h : Settles read) :
    Settles (readOption read) where
  of_skipSpace l := by rw [readOption, readOption, skipSpace_skipSpace]
  settled hvalue := by
    obtain ⟨c, r, rfl, hstart⟩ := hvalue.exists_cons
    by_cases hnull : c = 'n'
    · subst hnull
      rw [hstart.null rfl]
      exact settled_of_forall (o := some none) fun rest _ => rfl
    · refine settled_of_forall (o := (outcome read (c :: r)).map some) fun rest hrest => ?_
      have hread := h.settled hvalue rest hrest
      rw [List.cons_append] at hread ⊢
      rw [readOption, skipSpace_cons hstart.isSpace_eq_false]
      simp only [hnull, if_false, toOption_map, hread, Option.map_map]
      rfl

/-! ### What is made of a result -/

theorem Settles.map {read : List Char → Scan α} (h : Settles read) (f : α → β) :
    Settles fun l => (read l).map fun (a, l) => (f a, l) where
  of_skipSpace l := by rw [h.of_skipSpace]
  settled := fun {l} hvalue => by
    refine settled_of_forall (o := (outcome read l).map f) fun rest hrest => ?_
    rw [toOption_map, h.settled hvalue rest hrest, Option.map_map, Option.map_map]
    rfl

/-- A result may be refused, for whatever reason. -/
theorem Settles.check {read : List Char → Scan α} (h : Settles read) (check : α → Except Fault β) :
    Settles fun l =>
      (read l >>= fun p => (check p.1).map (·, p.2) : Except Fault (β × List Char)) where
  of_skipSpace l := by rw [h.of_skipSpace]
  settled := fun {l} hvalue => by
    refine settled_of_forall (o := (outcome read l).bind fun a => (check a).toOption)
      fun rest hrest => ?_
    rw [toOption_bind, h.settled hvalue rest hrest]
    cases outcome read l with
    | none => rfl
    | some a => exact toOption_map _ _

/-! ### Lists -/

theorem settles_readList {item : Nat → List Char → Scan α} (h : ∀ depth, Settles (item depth)) :
    Settles (readList item depth) where
  of_skipSpace l := by rw [readList, readList, skipSpace_skipSpace]
  settled hvalue := by
    obtain ⟨c, r, rfl, hstart⟩ := hvalue.exists_cons
    by_cases hc : c = '['
    · subst hc
      obtain ⟨space, items, rfl, hspace, hitems⟩ := hstart.array rfl
      cases depth with
      | zero => exact settled_of_forall (o := none) fun rest _ => rfl
      | succ depth =>
          refine settled_of_forall (o := items.mapM fun e => outcome (item depth) e.content)
            fun rest _ => ?_
          rw [List.cons_append, readList, skipSpace_cons rfl]
          exact toOption_readItems_arrayChars hitems
            (fun e he => (h depth).settled (hitems e he)) hspace rfl
    · refine settled_of_forall (o := none) fun rest _ => ?_
      rw [List.cons_append, readList, skipSpace_cons hstart.isSpace_eq_false]
      simp only [hc, if_false]
      rfl

/-! ### Records -/

namespace RecordForm

variable (form : RecordForm σ)

/-- What a member makes of the record read so far, if it can be read. -/
def step (depth : Nat) (state : σ × List String) (m : Member) : Option (σ × List String) :=
  m.name?.bind fun name =>
    match form.fields.find? (·.name == name) with
    | some field =>
      if name ∈ state.2 then none
      else (outcome (field.read depth state.1) m.value.content).map (·, name :: state.2)
    | none => if form.lenient then some state else none

variable {form}

theorem toOption_readMember (hfields : ∀ field ∈ form.fields, ∀ s, Settles (field.read depth s))
    {m : Member} (hvalue : IsValue m.value.content) (state : σ × List String) {rest : List Char}
    (hrest : EndsNumber rest) :
    (m.name?.bind fun name => (form.readMember depth state name (m.fromColon rest)).toOption) =
      (form.step depth state m).map (·, rest) := by
  rw [step, Option.map_bind]
  congr 1
  funext name
  rw [Function.comp_apply, readMember]
  cases hfind : form.fields.find? (·.name == name) with
  | some field =>
      have hsettles := hfields field (List.mem_of_find?_eq_some hfind) state.1
      dsimp only
      by_cases hmem : name ∈ state.2
      · rw [if_pos hmem, if_pos hmem]
        rfl
      · rw [if_neg hmem, if_neg hmem, scanColon_fromColon, ok_bind,
          hsettles.append_spaces m.value.before_spaces, toOption_bind,
          hsettles.settled hvalue rest hrest]
        cases outcome (field.read depth state.1) m.value.content <;> rfl
  | none =>
      cases form.lenient with
      | true =>
          simp only [if_true, scanColon_fromColon, ok_bind,
            skip_append hvalue m.value.before_spaces hrest]
          rfl
      | false => rfl

theorem toOption_scanArrayEnd {l r : List Char} {c : Char} (h : skipSpace l = c :: r)
    (hc : c ≠ ']') : (scanArrayEnd l).toOption = none := by
  rw [scanArrayEnd, h]
  simp only [hc, if_false]
  split <;> rfl

/-- Elements beyond the fields are not read. -/
theorem toOption_scanArrayEnd_entry (isFirst : Bool) {space : List Char} (hspace : IsSpaces space)
    {e : Spaced (List Char)} (he : IsValue e.content) (es : List (Spaced (List Char)))
    (rest : List Char) :
    (scanArrayEnd (space ++
      (entryChars isFirst ((e :: es).map (Spaced.chars id)) ++ rest))).toOption = none := by
  cases isFirst with
  | true =>
      obtain ⟨c, r, hcontent, hstart⟩ := he.exists_cons
      have hskip := fun l => hstart.skipSpace_append e.before_spaces l
      refine toOption_scanArrayEnd (c := c)
        (r := r ++ (e.after ++ (entryChars false (es.map (Spaced.chars id)) ++ rest))) ?_
        hstart.ne_mark.1
      rw [List.map_cons, entryChars_true_cons, skipSpace_append hspace, Spaced.chars, id, hcontent]
      simp only [List.append_assoc] at hskip ⊢
      exact hskip _
  | false =>
      refine toOption_scanArrayEnd (c := ',')
        (r := e.chars id ++ entryChars false (es.map (Spaced.chars id)) ++ rest) ?_ (by decide)
      rw [List.map_cons, entryChars_false_cons, skipSpace_append hspace]
      exact skipSpace_cons rfl _

variable (form) in
theorem exists_toOption_readFields {fields : List (Field σ)}
    (hfields : ∀ field ∈ fields, ∀ s, Settles (field.read depth s))
    {items : List (Spaced (List Char))} (hvalues : ∀ e ∈ items, IsValue e.content)
    (position : Nat) (s : σ) :
    ∃ o : Option σ, ∀ space rest, IsSpaces space →
      (form.readFields depth fields position s (space ++
        (entryChars (position == 0) (items.map (Spaced.chars id)) ++ ']' :: rest))).toOption =
      o.map (·, rest) := by
  -- fields and elements are used up side by side; either of them may be the first to end
  induction fields generalizing items position s with
  | nil =>
      cases items with
      | nil =>
          refine ⟨some s, fun space rest hspace => ?_⟩
          have hend : scanArrayEnd (space ++ ']' :: rest) = .ok rest := by
            rw [scanArrayEnd, skipSpace_append hspace, skipSpace_cons rfl]
            rfl
          rw [List.map_nil, entryChars_nil, List.nil_append, readFields, hend]
          rfl
      | cons e es =>
          refine ⟨none, fun space rest hspace => ?_⟩
          rw [readFields, toOption_bind, toOption_scanArrayEnd_entry _ hspace
            (hvalues e List.mem_cons_self)]
          rfl
  | cons field fields ih =>
      obtain ⟨hfield, hfields⟩ := List.forall_mem_cons.1 hfields
      cases items with
      | nil =>
          refine ⟨if form.full then none else some s, fun space rest hspace => ?_⟩
          rw [List.map_nil, entryChars_nil, List.nil_append, readFields,
            nextItem_spaced_close _ hspace, ok_bind]
          cases hfull : form.full <;> simp [Except.toOption]
      | cons e es =>
          obtain ⟨hvalue, hvalues⟩ := List.forall_mem_cons.1 hvalues
          have hread := (hfield s).settled hvalue
          cases hout : outcome (field.read depth s) e.content with
          | none =>
              refine ⟨none, fun space rest hspace => ?_⟩
              have hends := endsNumber_entryChars e.after_spaces (es.map (Spaced.chars id))
                (.inl rfl) rest
              rw [readFields, nextItem_spaced _ hspace hvalue, ok_bind, toOption_bind,
                hread _ hends, hout]
              rfl
          | some s' =>
              obtain ⟨o, hmore⟩ := ih hfields hvalues (position + 1) s'
              refine ⟨o, fun space rest hspace => ?_⟩
              have hends := endsNumber_entryChars e.after_spaces (es.map (Spaced.chars id))
                (.inl rfl) rest
              rw [readFields, nextItem_spaced _ hspace hvalue, ok_bind, toOption_bind,
                hread _ hends, hout]
              exact hmore e.after rest e.after_spaces

/-- An object of members is read one member after the other. -/
theorem toOption_read_object (hfields : ∀ field ∈ form.fields, ∀ s, Settles (field.read depth s))
    {space : List Char} (hspace : IsSpaces space) {members : List Member}
    (hmembers : ∀ m ∈ members, IsValue m.value.content) (start : σ) (rest : List Char) :
    (form.read start (depth + 1) ('\x7b' :: objectChars space members ++ rest)).toOption =
      (members.foldlM (form.step depth) (start, [])).map fun state => (state.1, rest) := by
  rw [List.cons_append, read, skipSpace_cons rfl]
  simp only [Char.reduceEq, if_false, if_true]
  rw [toOption_map, toOption_foldMembers_objectChars
    (fun m hm state _ hrest => toOption_readMember hfields (hmembers m hm) state hrest)
    hspace _ rfl, Option.map_map]
  rfl

theorem settles_read (hfields : ∀ field ∈ form.fields, ∀ depth s, Settles (field.read depth s))
    (start : σ) (depth : Nat) : Settles (form.read start depth) where
  of_skipSpace l := by rw [read, read, skipSpace_skipSpace]
  settled hvalue := by
    obtain ⟨c, r, rfl, hstart⟩ := hvalue.exists_cons
    by_cases harray : c = '['
    · subst harray
      obtain ⟨space, items, rfl, hspace, hitems⟩ := hstart.array rfl
      cases depth with
      | zero => exact settled_of_forall (o := none) fun rest _ => rfl
      | succ depth =>
          have hfields : ∀ field ∈ form.fields, ∀ s, Settles (field.read depth s) :=
            fun field hfield => hfields field hfield depth
          obtain ⟨o, hread⟩ := exists_toOption_readFields form hfields hitems 0 start
          refine settled_of_forall (o := o) fun rest _ => ?_
          rw [List.cons_append, read, skipSpace_cons rfl, arrayChars, List.append_assoc,
            List.append_assoc]
          exact hread space rest hspace
    · by_cases hobject : c = '\x7b'
      · subst hobject
        obtain ⟨space, members, rfl, hspace, hmembers⟩ := hstart.object rfl
        cases depth with
        | zero => exact settled_of_forall (o := none) fun rest _ => rfl
        | succ depth =>
            refine settled_of_forall
              (o := (members.foldlM (form.step depth) (start, [])).map Prod.fst) fun rest _ => ?_
            rw [toOption_read_object (fun field hfield => hfields field hfield depth) hspace
              hmembers, Option.map_map]
            rfl
      · refine settled_of_forall (o := none) fun rest _ => ?_
        rw [List.cons_append, read, skipSpace_cons hstart.isSpace_eq_false]
        simp only [harray, hobject, if_false]
        rfl

end RecordForm

theorem settles_read_setting {name : String} {read : Nat → List Char → Scan α} {set : α → σ → σ}
    (h : Settles (read depth)) (s : σ) : Settles ((Field.setting name read set).read depth s) :=
  h.map fun a => set a s

end GoCell.Json
