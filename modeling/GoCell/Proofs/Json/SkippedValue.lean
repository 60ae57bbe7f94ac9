import GoCell.Proofs.Json.ValueReader

/-!
Passing over the text of a value. The walk keeps the open containers on a stack, so a value
inside of others is passed over as it would be alone, and the stack is then as before. Every
value is passed over, however deep its nesting and whatever its numbers.
-/

namespace GoCell.Json

/-- What is done after a value, or after an opening bracket. -/
def resume (bound : Nat) (stack : List Container) (separated : Bool) (l : List Char) :
    Except Fault (List Char) := do
  match ← skipEnds stack separated l with
  | ([], rest) => .ok rest
  | (stack, rest) => skipValue bound stack rest

variable {bound : Nat} {stack : List Container} {space : List Char}

theorem resume_nil (bound : Nat) (separated : Bool) (l : List Char) :
    resume bound [] separated l = .ok l := rfl

theorem resume_of_skipEnds {inner : Container} {outer : List Container} {separated : Bool}
    {l rest : List Char} (h : skipEnds stack separated l = .ok (inner :: outer, rest)) :
    resume bound stack separated l = skipValue bound (inner :: outer) rest := by
  rw [resume, h]
  rfl

theorem skipValue_append_spaces (hspace : IsSpaces space) (l : List Char) :
    skipValue bound stack (space ++ l) = skipValue bound stack l := by
  cases bound with
  | zero => rfl
  | succ bound => rw [skipValue, skipValue, skipSpace_append hspace]

/-! ### By the first character -/

theorem skipValue_string (r : List Char) :
    skipValue (bound + 1) stack ('"' :: r) = skipText r >>= resume bound stack true := rfl

theorem skipValue_array (r : List Char) :
    skipValue (bound + 1) stack ('[' :: r) = resume bound (.array :: stack) false r := rfl

theorem skipValue_object (r : List Char) :
    skipValue (bound + 1) stack ('\x7b' :: r) = resume bound (.object :: stack) false r := rfl

theorem skipValue_number {c : Char} (h : c = '-' ∨ c.isDigit) (r : List Char) :
    skipValue (bound + 1) stack (c :: r) =
      scanNumber .invalidNumber (c :: r) >>= fun n => resume bound stack true n.2 := by
  have hne := fun x => ne_of_startsNumber (x := x) h
  rw [skipValue, skipSpace_cons (isSpace_eq_false_of_startsNumber h)]
  simp only [hne 'n' (by decide), hne 't' (by decide), hne 'f' (by decide), hne '"' (by decide),
    h, if_true, if_false]
  rfl

/-! ### Entries -/

theorem resume_array_close (separated : Bool) (hspace : IsSpaces space) (rest : List Char) :
    resume bound (.array :: stack) separated (space ++ ']' :: rest) =
      resume bound stack true rest := by
  rw [resume, resume, skipEnds, skipSpace_append hspace, skipSpace_cons rfl]
  rfl

theorem resume_object_close (separated : Bool) (hspace : IsSpaces space) (rest : List Char) :
    resume bound (.object :: stack) separated (space ++ '\x7d' :: rest) =
      resume bound stack true rest := by
  rw [resume, resume, skipEnds, skipSpace_append hspace, skipSpace_cons rfl]
  rfl

/-- The walk goes on to the next element of an array. -/
theorem resume_array_entry (isFirst : Bool) (hspace : IsSpaces space) {e : Spaced (List Char)}
    (he : IsValue e.content) (es : List (Spaced (List Char))) (rest : List Char) :
    resume bound (.array :: stack) (!isFirst)
        (space ++ (entryChars isFirst ((e :: es).map (Spaced.chars id)) ++ rest)) =
      skipValue bound (.array :: stack) (e.content ++
        (e.after ++ (entryChars false (es.map (Spaced.chars id)) ++ rest))) := by
  cases isFirst with
  | true =>
      obtain ⟨c, r, hcontent, hstart⟩ := he.exists_cons
      have hskip := fun l => hstart.skipSpace_append e.before_spaces l
      refine resume_of_skipEnds ?_
      rw [List.map_cons, entryChars_true_cons, skipEnds, skipSpace_append hspace, Spaced.chars, id,
        hcontent]
      simp only [List.append_assoc] at hskip ⊢
      rw [hskip]
      simp [hstart.ne_mark.1]
  | false =>
      rw [← skipValue_append_spaces e.before_spaces]
      refine resume_of_skipEnds ?_
      rw [List.map_cons, entryChars_false_cons, skipEnds, skipSpace_append hspace, List.cons_append,
        skipSpace_cons rfl, Spaced.chars, id]
      simp

theorem skipKey_append_spaces (hspace : IsSpaces space) (l : List Char) :
    skipKey (space ++ l) = skipKey l := by
  rw [skipKey, skipKey, skipSpace_append hspace]

theorem skipKey_chars (m : Member) (rest : List Char) :
    skipKey (m.chars ++ rest) =
      .ok (m.value.before ++ (m.value.content ++ (m.value.after ++ rest))) := by
  have htext := skipText_parts m.key.content (m.fromColon (m.value.after ++ rest))
  rw [m.chars_append, skipKey_append_spaces m.key.before_spaces, skipKey, skipSpace_cons rfl]
  simp only [if_true, htext, ok_bind, scanColon_fromColon]

/-- The walk goes on to the value of the next member of an object. -/
theorem resume_object_entry (isFirst : Bool) (hspace : IsSpaces space) (m : Member)
    (ms : List Member) (rest : List Char) :
    resume bound (.object :: stack) (!isFirst)
        (space ++ (entryChars isFirst ((m :: ms).map Member.chars) ++ rest)) =
      skipValue bound (.object :: stack) (m.value.content ++
        (m.value.after ++ (entryChars false (ms.map Member.chars) ++ rest))) := by
  have hkey := skipKey_chars m (entryChars false (ms.map Member.chars) ++ rest)
  rw [← skipValue_append_spaces m.value.before_spaces]
  refine resume_of_skipEnds ?_
  cases isFirst with
  | true =>
      rw [m.chars_append, skipKey_append_spaces m.key.before_spaces] at hkey
      rw [List.map_cons, entryChars_true_cons, List.append_assoc, m.chars_append, skipEnds,
        skipSpace_append hspace, skipSpace_append m.key.before_spaces, skipSpace_cons rfl]
      simp [hkey, Except.map]
  | false =>
      rw [List.map_cons, entryChars_false_cons, skipEnds, skipSpace_append hspace, List.cons_append,
        skipSpace_cons rfl, List.append_assoc]
      simp [hkey, Except.map]

/-! ### Values -/

/-- Whether the walk passes over a text, with a bound not above its length, and leaves the
open containers as they are. -/
def Passed (l : List Char) : Prop :=
  ∃ k ≤ l.length, ∀ bound stack rest, EndsNumber rest →
    skipValue (bound + k) stack (l ++ rest) = resume bound stack true rest

/-- Entries are passed over one by one, up to the closing bracket. What sets arrays and objects
apart is how the walk gets to the value of the next entry. -/
theorem exists_resume_entries {ε : Type} {inner : Container} {close : Char} {text : ε → List Char}
    (value : ε → Spaced (List Char)) {entries : List ε} (hmark : close = ']' ∨ close = '\x7d')
    (hclose : ∀ bound stack separated space rest, IsSpaces space →
      resume bound (inner :: stack) separated (space ++ close :: rest) =
        resume bound stack true rest)
    (hentry : ∀ e ∈ entries, ∀ es bound stack isFirst space rest, IsSpaces space →
      resume bound (inner :: stack) (!isFirst)
          (space ++ (entryChars isFirst ((e :: es).map text) ++ rest)) =
        skipValue bound (inner :: stack) ((value e).content ++
          ((value e).after ++ (entryChars false (es.map text) ++ rest))))
    (hlength : ∀ e, (value e).content.length ≤ (text e).length)
    (hpassed : ∀ e ∈ entries, Passed (value e).content) (isFirst : Bool) :
    ∃ k ≤ (entryChars isFirst (entries.map text)).length, ∀ bound stack space rest,
      IsSpaces space →
        resume (bound + k) (inner :: stack) (!isFirst)
          (space ++ (entryChars isFirst (entries.map text) ++ close :: rest)) =
        resume bound stack true rest := by
  -- what one value leaves of the bound is what the entries after it have
  induction entries generalizing isFirst with
  | nil =>
      refine ⟨0, Nat.zero_le _, fun bound stack space rest hspace => ?_⟩
      rw [List.map_nil, entryChars_nil, List.nil_append, hclose _ _ _ _ _ hspace, Nat.add_zero]
  | cons e es ih =>
      obtain ⟨hnext, hentries⟩ := List.forall_mem_cons.1 hentry
      obtain ⟨⟨k, hk, hskip⟩, hpassed⟩ := List.forall_mem_cons.1 hpassed
      obtain ⟨ks, hks, hmore⟩ := ih hentries hpassed false
      have hchars := hlength e
      refine ⟨ks + k, ?_, fun bound stack space rest hspace => ?_⟩
      · cases isFirst with
        | true =>
            rw [List.map_cons, entryChars_true_cons, List.length_append]
            omega
        | false =>
            rw [List.map_cons, entryChars_false_cons, List.length_cons, List.length_append]
            omega
      · have hends := endsNumber_entryChars (value e).after_spaces (es.map text) hmark rest
        rw [hnext _ _ _ _ _ _ hspace, ← Nat.add_assoc, hskip _ _ _ hends]
        exact hmore bound stack (value e).after rest (value e).after_spaces

theorem exists_resume_array {items : List (Spaced (List Char))}
    (hvalues : ∀ e ∈ items, IsValue e.content) (hpassed : ∀ e ∈ items, Passed e.content) :
    ∃ k ≤ (entryChars true (items.map (Spaced.chars id))).length, ∀ bound stack space rest,
      IsSpaces space →
        resume (bound + k) (.array :: stack) false
          (space ++ (entryChars true (items.map (Spaced.chars id)) ++ ']' :: rest)) =
        resume bound stack true rest := by
  refine exists_resume_entries id (.inl rfl)
    (fun _ _ separated _ rest hspace => resume_array_close separated hspace rest)
    (fun e he es _ _ isFirst _ rest hspace =>
      resume_array_entry isFirst hspace (hvalues e he) es rest) (fun e => ?_) hpassed true
  simp only [Spaced.chars, id, List.length_append]
  omega

theorem exists_resume_object {members : List Member}
    (hpassed : ∀ m ∈ members, Passed m.value.content) :
    ∃ k ≤ (entryChars true (members.map Member.chars)).length, ∀ bound stack space rest,
      IsSpaces space →
        resume (bound + k) (.object :: stack) false
          (space ++ (entryChars true (members.map Member.chars) ++ '\x7d' :: rest)) =
        resume bound stack true rest := by
  refine exists_resume_entries Member.value (.inr rfl)
    (fun _ _ separated _ rest hspace => resume_object_close separated hspace rest)
    (fun m _ ms _ _ isFirst _ rest hspace => resume_object_entry isFirst hspace m ms rest)
    (fun m => ?_) hpassed true
  simp only [Member.chars, Spaced.chars, id, List.length_append, List.length_cons]
  omega

theorem passed_of_isValue {l : List Char} (h : IsValue l) : Passed l := by
  induction h with
  | null => exact ⟨1, by decide, fun _ _ _ _ => rfl⟩
  | true => exact ⟨1, by decide, fun _ _ _ _ => rfl⟩
  | false => exact ⟨1, by decide, fun _ _ _ _ => rfl⟩
  | number hnumber =>
      obtain ⟨n, hn⟩ := hnumber.exists_scanNumber_eq
      obtain ⟨c, r, rfl, hc⟩ := hnumber.exists_cons
      refine ⟨1, by simp, fun bound stack rest hrest => ?_⟩
      have hscan := hn .invalidNumber rest hrest
      rw [List.cons_append] at hscan ⊢
      rw [skipValue_number hc, hscan, ok_bind]
  | string parts =>
      refine ⟨1, by simp [stringChars], fun bound stack rest _ => ?_⟩
      rw [stringChars_append, skipValue_string, skipText_parts, ok_bind]
  | @array space items hspace hitems ih =>
      obtain ⟨k, hk, hmore⟩ := exists_resume_array hitems ih
      refine ⟨k + 1, ?_, fun bound stack rest _ => ?_⟩
      · simp only [arrayChars, List.length_cons, List.length_append]
        omega
      · rw [← Nat.add_assoc, List.cons_append, skipValue_array, arrayChars, List.append_assoc,
          List.append_assoc]
        exact hmore bound stack space rest hspace
  | @object space members hspace hmembers ih =>
      obtain ⟨k, hk, hmore⟩ := exists_resume_object ih
      refine ⟨k + 1, ?_, fun bound stack rest _ => ?_⟩
      · simp only [objectChars, List.length_cons, List.length_append]
        omega
      · rw [← Nat.add_assoc, List.cons_append, skipValue_object, objectChars, List.append_assoc,
          List.append_assoc]
        exact hmore bound stack space rest hspace

/-- A value whose content is of no interest is passed over, whatever it is. -/
theorem skip_append {l rest : List Char} (h : IsValue l) (hspace : IsSpaces space)
    (hrest : EndsNumber rest) : skip (space ++ (l ++ rest)) = .ok rest := by
  obtain ⟨k, hk, hskip⟩ := passed_of_isValue h
  obtain ⟨bound, hbound⟩ : ∃ bound, (space ++ (l ++ rest)).length + 1 = bound + k := by
    refine ⟨(space ++ (l ++ rest)).length + 1 - k, ?_⟩
    simp only [List.length_append]
    omega
  rw [skip, hbound, skipValue_append_spaces hspace, hskip bound [] rest hrest, resume_nil]

end GoCell.Json
