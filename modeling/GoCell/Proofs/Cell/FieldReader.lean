import GoCell.Cell.Reader
import GoCell.Proofs.Json.RecordReader

/-!
The fields of a cell. Each of them is read from the text of its value alone, and sets one
field of the cell, whatever the others are.
-/

namespace GoCell

open Json

variable {α β : Type} {depth : Nat}

/-! ### The readers of the fields -/

/-- The two fields of a record, if both were read. -/
def Pending.complete (firstName secondName : String) : Pending α β → Except Fault (α × β)
  | ⟨some a, some b⟩ => .ok (a, b)
  | ⟨none, _⟩ => .error (.missingField firstName)
  | ⟨some _, none⟩ => .error (.missingField secondName)

theorem readPair_eq (wanted firstName secondName : String) (first : Nat → List Char → Scan α)
    (second : Nat → List Char → Scan β) (depth : Nat) (l : List Char) :
    readPair wanted firstName secondName first second depth l =
      ((pairForm wanted firstName secondName first second).read ⟨none, none⟩ depth l >>= fun p =>
        (p.1.complete firstName secondName).map (·, p.2) :
          Except Fault ((α × β) × List Char)) := by
  rw [readPair]
  cases (pairForm wanted firstName secondName first second).read ⟨none, none⟩ depth l with
  | error f => rfl
  | ok p =>
      obtain ⟨⟨first?, second?⟩, rest⟩ := p
      cases first? <;> cases second? <;> rfl

theorem settles_readPair {wanted firstName secondName : String}
    {first : Nat → List Char → Scan α} {second : Nat → List Char → Scan β}
    (hfirst : ∀ depth, Settles (first depth)) (hsecond : ∀ depth, Settles (second depth)) :
    Settles (readPair wanted firstName secondName first second depth) := by
  have hfields : ∀ field ∈ (pairForm wanted firstName secondName first second).fields,
      ∀ depth s, Settles (field.read depth s) := by
    intro field hfield depth s
    simp only [pairForm, List.mem_cons, List.not_mem_nil, or_false] at hfield
    rcases hfield with rfl | rfl
    · exact settles_read_setting (hfirst depth) s
    · exact settles_read_setting (hsecond depth) s
  exact ((RecordForm.settles_read hfields ⟨none, none⟩ depth).check
    (Pending.complete firstName secondName)).congr
    (readPair_eq wanted firstName secondName first second depth)

theorem Value.settles_read (depth : Nat) : Settles (Value.read depth) :=
  (settles_readValue depth).map Value.ofJson

theorem Binding.settles_read (depth : Nat) : Settles (Binding.read depth) :=
  ((settles_readPair (fun _ => settles_readString) Value.settles_read).map
    fun p => ({ name := p.1, value := p.2 } : Binding)).congr fun _ => rfl

theorem Columns.settles_read (depth : Nat) : Settles (Columns.read depth) :=
  ((settles_readPair (fun _ => settles_readString)
    fun _ => settles_readList fun _ => settles_readString).map
    fun p => ({ table := p.1, names := p.2 } : Columns)).congr fun _ => rfl

theorem settles_readImports (depth : Nat) : Settles (readImports depth) := by
  have hread := (settles_readValue depth).check fun j =>
    (importsOfJson? j).elim (.error (.noVariant "OneOrMany")) .ok
  refine hread.congr fun l => ?_
  rw [readImports]
  cases readValue depth l with
  | error f => rfl
  | ok p =>
      simp only [ok_bind]
      cases importsOfJson? p.1 <;> rfl

namespace ResultShape

theorem toOption_readUnit {l : List Char} (h : IsValue l) :
    ∃ o : Option Unit, ∀ space rest, IsSpaces space →
      (readUnit (space ++ (l ++ rest))).toOption = o.map fun _ => rest := by
  obtain ⟨c, r, rfl, hstart⟩ := h.exists_cons
  by_cases hc : c = 'n'
  · subst hc
    rw [hstart.null rfl]
    refine ⟨some (), fun space rest hspace => ?_⟩
    rw [readUnit, skipSpace_append hspace]
    rfl
  · refine ⟨none, fun space rest hspace => ?_⟩
    rw [readUnit, skipSpace_append hspace, List.cons_append,
      skipSpace_cons hstart.isSpace_eq_false]
    simp only [hc, if_false]
    rfl

/-- Reads a shape in an object, from its opening bracket on. -/
def readNamed (r : List Char) : Except Fault (ResultShape × List Char) := do
  match ← nextMember true r with
  | .close _ => .error .expectedValue
  | .entry (name, r) =>
    let shape ← ofName name
    let r ← readUnit (← scanColon r)
    match skipSpace r with
    | [] => .error .endInObject
    | c :: r => if c = '\x7d' then .ok (shape, r) else .error .expectedValue

theorem read_object {depth : Nat} (h : depth ≠ 0) (r : List Char) :
    read depth ('\x7b' :: r) = readNamed r := by
  rw [read, skipSpace_cons rfl]
  simp only [Char.reduceEq, ne_eq, not_true_eq_false, if_false, h]
  rfl

/-- A member whose name is that of a shape, with nothing after it, is the shape. -/
theorem exists_toOption_readNamed {space : List Char} (hspace : IsSpaces space)
    {members : List Member} (hmembers : ∀ m ∈ members, IsValue m.value.content) :
    ∃ o : Option ResultShape, ∀ rest,
      (readNamed (objectChars space members ++ rest)).toOption = o.map (·, rest) := by
  cases members with
  | nil =>
      refine ⟨none, fun rest => ?_⟩
      rw [readNamed, objectChars, List.map_nil, entryChars_nil, List.nil_append, List.append_assoc,
        List.singleton_append, nextMember_spaced_close _ hspace]
      rfl
  | cons m ms =>
      obtain ⟨hvalue, -⟩ := List.forall_mem_cons.1 hmembers
      obtain ⟨o, hunit⟩ := toOption_readUnit hvalue
      refine ⟨m.name?.bind fun name => (ofName name).toOption.bind fun shape =>
        if ms.isEmpty then o.map fun _ => shape else none, fun rest => ?_⟩
      have hclose : ∀ shape : ResultShape,
          (match skipSpace (m.value.after ++ (entryChars false (ms.map Member.chars) ++
              '\x7d' :: rest)) with
            | [] => (.error .endInObject : Scan ResultShape)
            | c :: r => if c = '\x7d' then .ok (shape, r) else .error .expectedValue).toOption =
          if ms.isEmpty then some (shape, rest) else none := by
        intro shape
        rw [skipSpace_append m.value.after_spaces]
        cases ms <;> rfl
      rw [readNamed, objectChars, List.append_assoc, List.append_assoc, List.singleton_append,
        toOption_bind, toOption_nextMember true hspace]
      cases m.name? with
      | none => rfl
      | some name =>
          simp only [Option.map_some, Option.bind_some, toOption_bind, scanColon_fromColon, ok_bind,
            hunit _ _ m.value.before_spaces]
          cases (ofName name).toOption with
          | none => rfl
          | some shape =>
              cases o with
              | none => cases ms <;> rfl
              | some _ =>
                  refine (hclose shape).trans ?_
                  cases ms <;> rfl

theorem settles_read (depth : Nat) : Settles (read depth) where
  of_skipSpace l := by rw [read, read, skipSpace_skipSpace]
  settled := fun {l} hvalue => by
    obtain ⟨c, r, rfl, hstart⟩ := hvalue.exists_cons
    by_cases hstring : c = '"'
    · have hread := (settles_readString.check ofName).settled hvalue
      refine settled_of_forall fun rest hrest => Eq.trans ?_ (hread rest hrest)
      subst hstring
      rw [List.cons_append, read, skipSpace_cons rfl]
      simp only [if_true]
      cases readString ('"' :: (r ++ rest)) with
      | error f => rfl
      | ok p =>
          simp only [ok_bind]
          cases ofName p.1 <;> rfl
    by_cases hobject : c = '\x7b'
    · subst hobject
      obtain ⟨space, members, rfl, hspace, hmembers⟩ := hstart.object rfl
      by_cases hdepth : depth = 0
      · refine settled_of_forall (o := none) fun rest _ => ?_
        rw [List.cons_append, read, skipSpace_cons rfl]
        simp [hdepth, Except.toOption]
      · obtain ⟨o, hread⟩ := exists_toOption_readNamed hspace hmembers
        refine settled_of_forall (o := o) fun rest _ => ?_
        rw [List.cons_append, read_object hdepth]
        exact hread rest
    · refine settled_of_forall (o := none) fun rest _ => ?_
      rw [List.cons_append, read, skipSpace_cons hstart.isSpace_eq_false]
      simp only [hstring, hobject, if_false, ne_eq, not_false_eq_true, if_true]
      rfl

end ResultShape

end GoCell
