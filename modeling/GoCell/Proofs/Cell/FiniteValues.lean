import GoCell.Cell.Reader
import GoCell.Proofs.Program.Independence
import GoCell.Proofs.Value.JsonRoundTrip

/-!
The values of a cell that is read from JSON. What the reader of a field guarantees holds of
the record, however the record is written; so no float in a binding is infinite or not a
number. Under the loose rule there is nothing else that a value could be at fault for: such
a cell fails for a session or for a name.
-/

namespace GoCell

open Json

/-! ### What readers of data preserve -/

section Readers

variable {α β σ : Type} {depth : Nat} {l rest : List Char}

/-- Every element of a list was read by the reader of elements. -/
theorem Json.exists_of_mem_readList {item : Nat → List Char → Scan α} {as : List α}
    (h : readList item depth l = .ok (as, rest)) :
    ∀ a ∈ as, ∃ depth l rest, item depth l = .ok (a, rest) := by
  unfold readList at h
  split at h
  · cases h
  split at h
  · cases depth with
    | zero => cases h
    | succ depth =>
        intro a ha
        obtain ⟨l', rest', hitem⟩ := exists_of_mem_readItems h a ha
        exact ⟨depth, l', rest', hitem⟩
  · cases h

namespace Json.RecordForm

variable {form : RecordForm σ} {P : σ → Prop}

/-- Whether what holds of a record still holds when a field has been read into it. -/
def Keeps (P : σ → Prop) (field : Field σ) : Prop :=
  ∀ depth s l s' rest, P s → field.read depth s l = .ok (s', rest) → P s'

theorem keeps_setting {name : String} {read : Nat → List Char → Scan α} {set : α → σ → σ}
    (h : ∀ depth l a rest, read depth l = .ok (a, rest) → ∀ s, P s → P (set a s)) :
    Keeps P (.setting name read set) := by
  intro depth s l s' rest hs hread
  obtain ⟨⟨a, _⟩, hread, heq⟩ := map_eq_ok_iff.1 hread
  cases heq
  exact h depth l a rest hread s hs

theorem readMember_keeps (hfields : ∀ field ∈ form.fields, Keeps P field)
    {state state' : σ × List String} {key : String} (hs : P state.1)
    (h : form.readMember depth state key l = .ok (state', rest)) : P state'.1 := by
  unfold readMember at h
  split at h
  · next field hfind =>
    split at h
    · cases h
    · obtain ⟨l', -, h⟩ := bind_eq_ok_iff.1 h
      obtain ⟨⟨s, _⟩, hread, heq⟩ := bind_eq_ok_iff.1 h
      cases heq
      exact hfields field (List.mem_of_find?_eq_some hfind) depth state.1 l' s rest hs hread
  · split at h
    · obtain ⟨l', -, h⟩ := bind_eq_ok_iff.1 h
      obtain ⟨l'', -, heq⟩ := bind_eq_ok_iff.1 h
      cases heq
      exact hs
    · cases h

theorem readFields_keeps {fields : List (Field σ)} (hfields : ∀ field ∈ fields, Keeps P field)
    {position : Nat} {s s' : σ} (hs : P s)
    (h : form.readFields depth fields position s l = .ok (s', rest)) : P s' := by
  induction fields generalizing position s l with
  | nil =>
      obtain ⟨l', -, heq⟩ := bind_eq_ok_iff.1 h
      cases heq
      exact hs
  | cons field fields ih =>
      obtain ⟨hfield, hfields⟩ := List.forall_mem_cons.1 hfields
      rw [readFields, bind_eq_ok_iff] at h
      obtain ⟨next, -, h⟩ := h
      cases next with
      | close r =>
          dsimp only at h
          split at h
          · cases h
          · cases h
            exact hs
      | entry r =>
          obtain ⟨⟨s₁, l'⟩, hread, hmore⟩ := bind_eq_ok_iff.1 h
          exact ih hfields (hfield depth s r s₁ l' hs hread) hmore

/-- What holds at the start, and is kept by every field, holds of the record that is read. -/
theorem read_keeps (hfields : ∀ field ∈ form.fields, Keeps P field) {start s : σ}
    (hstart : P start) (h : form.read start depth l = .ok (s, rest)) : P s := by
  unfold read at h
  split at h
  · cases h
  split at h
  · cases depth with
    | zero => cases h
    | succ depth => exact readFields_keeps hfields hstart h
  split at h
  · cases depth with
    | zero => cases h
    | succ depth =>
        obtain ⟨⟨state, l'⟩, hread, heq⟩ := map_eq_ok_iff.1 h
        cases heq
        refine foldMembers_induction (P := fun state => P state.1) ?_ hstart hread
        intro state key l state' rest hs hmember
        exact readMember_keeps hfields hs hmember
  · cases h

end Json.RecordForm

/-- Whether what is there of a pair was read by the readers of its parts. -/
structure Pending.IsRead (first : Nat → List Char → Scan α) (second : Nat → List Char → Scan β)
    (p : Pending α β) : Prop where
  first : ∀ a, p.first = some a → ∃ depth l rest, first depth l = .ok (a, rest)
  second : ∀ b, p.second = some b → ∃ depth l rest, second depth l = .ok (b, rest)

theorem Pending.keeps_isRead (wanted firstName secondName : String)
    (first : Nat → List Char → Scan α) (second : Nat → List Char → Scan β) :
    ∀ field ∈ (pairForm wanted firstName secondName first second).fields,
      RecordForm.Keeps (IsRead first second) field := by
  simp only [pairForm, List.forall_mem_cons]
  refine ⟨RecordForm.keeps_setting ?_, RecordForm.keeps_setting ?_, by simp⟩
  · intro depth l a rest hread p hp
    refine ⟨?_, hp.second⟩
    rintro _ ⟨⟩
    exact ⟨depth, l, rest, hread⟩
  · intro depth l b rest hread p hp
    refine ⟨hp.first, ?_⟩
    rintro _ ⟨⟩
    exact ⟨depth, l, rest, hread⟩

/-- Both parts of a pair were read by their readers. -/
theorem exists_of_readPair {wanted firstName secondName : String}
    {first : Nat → List Char → Scan α} {second : Nat → List Char → Scan β} {p : α × β}
    (h : readPair wanted firstName secondName first second depth l = .ok (p, rest)) :
    (∃ depth l rest, first depth l = .ok (p.1, rest)) ∧
      ∃ depth l rest, second depth l = .ok (p.2, rest) := by
  have hkeeps := Pending.keeps_isRead wanted firstName secondName first second
  unfold readPair at h
  split at h
  · cases h
  · next hread =>
    cases h
    obtain ⟨hfirst, hsecond⟩ :=
      RecordForm.read_keeps hkeeps ⟨by simp, by simp⟩ hread
    exact ⟨hfirst _ rfl, hsecond _ rfl⟩
  · cases h
  · cases h

end Readers

/-! ### Values, bindings and cells -/

theorem Value.allFinite_of_read {depth : Nat} {l rest : List Char} {v : Value}
    (h : Value.read depth l = .ok (v, rest)) : v.AllFinite := by
  obtain ⟨⟨j, l'⟩, hread, heq⟩ := map_eq_ok_iff.1 h
  cases heq
  exact allFinite_ofJson (readable_of_readValue hread)

theorem Binding.allFinite_of_read {depth : Nat} {l rest : List Char} {b : Binding}
    (h : Binding.read depth l = .ok (b, rest)) : b.value.AllFinite := by
  obtain ⟨⟨⟨name, value⟩, l'⟩, hread, heq⟩ := map_eq_ok_iff.1 h
  cases heq
  obtain ⟨-, _, _, _, hvalue⟩ := exists_of_readPair hread
  exact Value.allFinite_of_read hvalue

namespace Cell

/-- Whether the bindings of a cell hold finite floats only. -/
def AllFinite (cell : Cell) : Prop := ∀ b ∈ cell.bindings, b.value.AllFinite

/-- Only the bindings bring values into a cell. -/
theorem form_keeps_allFinite : ∀ field ∈ form.fields, RecordForm.Keeps AllFinite field := by
  have hother : ∀ {α : Type} {name : String} {read : Nat → List Char → Scan α}
      {set : α → Cell → Cell}, (∀ a c, (set a c).bindings = c.bindings) →
        RecordForm.Keeps AllFinite (.setting name read set) := by
    intro α name read set hset
    refine RecordForm.keeps_setting fun depth l a rest _ c hc => ?_
    rw [AllFinite, hset]
    exact hc
  simp only [form, List.forall_mem_cons]
  refine ⟨hother fun _ _ => rfl, hother fun _ _ => rfl, hother fun _ _ => rfl, ?_,
    hother fun _ _ => rfl, hother fun _ _ => rfl, hother fun _ _ => rfl, hother fun _ _ => rfl,
    hother fun _ _ => rfl, hother fun _ _ => rfl, hother fun _ _ => rfl, by simp⟩
  refine RecordForm.keeps_setting fun depth l bs rest hread c _ b hb => ?_
  obtain ⟨d, l', rest', hbinding⟩ := exists_of_mem_readList hread b hb
  exact Binding.allFinite_of_read hbinding

theorem allFinite_of_parse {text : String} {cell : Cell} (h : parse text = .ok cell) :
    cell.AllFinite := by
  obtain ⟨⟨c, rest⟩, hread, hfinish⟩ := bind_eq_ok_iff.1 h
  have hstart : AllFinite {} := by simp [AllFinite]
  have hcell := RecordForm.read_keeps form_keeps_allFinite hstart hread
  obtain ⟨rfl, -⟩ := eq_of_finish_eq_ok hfinish
  exact hcell

/-- A header takes none of the floats that are written as numbers with it, and adds none. -/
theorem allFinite_declared {cell : Cell} {b : Binding} (h : b.value.AllFinite) :
    (cell.declared b).value.AllFinite := by
  unfold declared
  split
  · unfold Table.takeHeader
    split
    · exact h
    · split
      · next names value hsplit =>
        unfold Table.splitHeader? at hsplit
        split at hsplit
        · next cells rows hvalue =>
          split at hsplit
          · cases hsplit
          · cases hsplit
            rw [hvalue, Value.allFinite_seq] at h
            exact Value.allFinite_seq.2 (List.forall_mem_cons.1 h).2
        · cases hsplit
      · exact h
  · exact h

/-! ### Loose generation -/

variable {settings : Settings} {cell : Cell}

/-- With finite floats and under the loose rule, only its name keeps a binding from being
declared. -/
theorem declarationFails_of_loose {columns : List Columns} {b : Binding} {e : GenerationError}
    (hfinite : b.value.AllFinite) (h : DeclarationFails false columns b e) :
    e = .invalidName .binding b.name ∧ Go.isIdentifier b.name = false := by
  cases h with
  | refused h => exact absurd h.1 Bool.false_ne_true
  | name _ hname => exact ⟨rfl, hname⟩
  | @notFinite x _ _ hfind =>
      have hx := hfinite x (List.mem_of_find?_eq_some hfind)
      simpa [hx] using List.find?_some hfind

theorem isInvalidName_of_fails (hloose : settings.strict = false) (hfinite : cell.AllFinite)
    {e : GenerationError} (h : Fails settings cell e) :
    e = .sessionRequested ∧ cell.AsksSession ∨
      ∃ role name, e = .invalidName role name ∧ Go.isIdentifier name = false := by
  cases h with
  | session hasks => exact .inl ⟨rfl, hasks⟩
  | package _ hname => exact .inr ⟨_, _, rfl, hname.2.2⟩
  | binding _ _ hfirst =>
      obtain ⟨before, b, after, hsplit, -, hb⟩ := hfirst
      have hmem : b ∈ cell.tables.1 := hsplit ▸ by simp
      rw [tables_bindings, List.mem_map] at hmem
      obtain ⟨a, ha, rfl⟩ := hmem
      rw [hloose] at hb
      exact .inr ⟨_, _, declarationFails_of_loose (allFinite_declared (hfinite a ha)) hb⟩
  | table _ _ _ hfirst =>
      obtain ⟨before, c, after, -, -, hname, rfl⟩ := hfirst
      exact .inr ⟨_, _, rfl, hname⟩

/-- What a cell needs, besides finite floats, in order to be made into a program under the
loose rule. -/
structure IsNamed (settings : Settings) (cell : Cell) : Prop where
  session : ¬cell.AsksSession
  package : ∀ name, ¬PackageFails settings cell name
  bindings : ∀ b ∈ cell.bindings, Go.isIdentifier b.name = true
  tables : ∀ c ∈ cell.columns, Go.isIdentifier c.table = true

theorem isWritable_iff_of_loose (hloose : settings.strict = false) (hfinite : cell.AllFinite) :
    IsWritable settings cell ↔ IsNamed settings cell := by
  constructor
  · rintro ⟨hsession, hpackage, hbindings, htables⟩
    refine ⟨hsession, hpackage, fun b hb => ?_, fun c hc => ?_⟩
    · rw [← name_declared cell b]
      refine (hbindings _ ?_).2.1
      rw [tables_bindings]
      exact List.mem_map_of_mem hb
    · exact htables c (mem_columns_iff.2 (.inl hc))
  · rintro ⟨hsession, hpackage, hbindings, htables⟩
    refine ⟨hsession, hpackage, fun b hb => ?_, fun c hc => ?_⟩
    · rw [tables_bindings, List.mem_map] at hb
      obtain ⟨a, ha, rfl⟩ := hb
      refine ⟨fun o ho => ?_, ?_, allFinite_declared (hfinite a ha)⟩
      · rw [hloose] at ho
        exact absurd ho.1 Bool.false_ne_true
      · rw [name_declared]
        exact hbindings a ha
    · rcases mem_columns_iff.1 hc with hc | ⟨-, b, hb, htaken⟩
      · exact htables c hc
      · rw [table_of_snd_takeHeader htaken]
        exact hbindings b hb

theorem generate_eq_error_iff {e : GenerationError} :
    cell.generate settings = .error e ↔ Fails settings cell e := by
  rw [generate, map_eq_error_iff, assemble_eq_error_iff]

/-- Whatever values a cell holds that is read from JSON, under the loose rule it is made
into a program unless it asks for a session or a name cannot be written; no value is at
fault. -/
theorem generate_loose_of_parse {text : String} (hparse : parse text = .ok cell)
    (hloose : settings.strict = false) :
    (∀ v o, cell.generate settings ≠ .error (.unsupported v o)) ∧
    (∀ e, cell.generate settings = .error e →
      e = .sessionRequested ∧ cell.AsksSession ∨
        ∃ role name, e = .invalidName role name ∧ Go.isIdentifier name = false) ∧
    ((∃ code, cell.generate settings = .ok code) ↔ IsNamed settings cell) := by
  have hfinite := allFinite_of_parse hparse
  have hfails : ∀ e, cell.generate settings = .error e →
      e = .sessionRequested ∧ cell.AsksSession ∨
        ∃ role name, e = .invalidName role name ∧ Go.isIdentifier name = false := fun e h =>
    isInvalidName_of_fails hloose hfinite (generate_eq_error_iff.1 h)
  refine ⟨fun v o h => ?_, hfails, ?_⟩
  · rcases hfails _ h with ⟨he, -⟩ | ⟨role, name, he, -⟩ <;> cases he
  · rw [exists_eq_ok_iff, ← isWritable_iff_of_loose hloose hfinite, ← forall_not_fails_iff]
    simp only [ne_eq, generate_eq_error_iff]

/-- A table with a header over a row of numbers that are no 64-bit integers and a row with an
object in it, and an empty table with given columns. -/
def mixedText : String :=
  "\x7b\"vars\": [\x7b\"name\": \"t\", \"value\": [[\"a\", null], " ++
  "[-0, 2.5e3, 9223372036854775808], [\x7b\"k\": [true]\x7d], \x7b\"symbol\": \"hline\"\x7d]\x7d, " ++
  "\x7b\"name\": \"e\", \"value\": []\x7d], " ++
  "\"columns\": [\x7b\"table\": \"e\", \"columns\": [\"c\"]\x7d], \"colnames\": true\x7d"

theorem generate_loose_mixedText :
    ∃ cell, parse mixedText = .ok cell ∧ (∀ v o, cell.generate {} ≠ .error (.unsupported v o)) ∧
      ((∃ code, cell.generate {} = .ok code) ↔ IsNamed {} cell) := by
  obtain ⟨cell, hcell⟩ := exists_eq_ok_of_isSome
    (show (parse mixedText).toOption.isSome by decide +kernel)
  have hloose : ({} : Settings).strict = false := rfl
  obtain ⟨hvalues, -, hcode⟩ := generate_loose_of_parse hcell hloose
  exact ⟨cell, hcell, hvalues, hcode⟩

end Cell

end GoCell
