import GoCell.Proofs.Cell.FieldReader
import Mathlib.Data.List.Nodup
import Mathlib.Data.List.Perm.Basic

/-!
A cell is read member by member. Whether an object can be read, and what it is read as, can
be seen from its members alone, each in an object of its own.
-/

namespace GoCell

open Json

namespace Cell

/-- The names of the fields. -/
def fieldNames : List String := form.fields.map (·.name)

/-- A cell with one field, the one of this name, as it is in `source`. -/
def takeField (cell : Cell) (name : String) (source : Cell) : Cell where
  body := if name = "body" then source.body else cell.body
  package := if name = "package" then source.package else cell.package
  imports := if name = "imports" then source.imports else cell.imports
  bindings := if name = "vars" then source.bindings else cell.bindings
  columns := if name = "columns" then source.columns else cell.columns
  headers := if name = "colnames" then source.headers else cell.headers
  entryPoint := if name = "main" then source.entryPoint else cell.entryPoint
  session := if name = "session" then source.session else cell.session
  flags := if name = "flags" then source.flags else cell.flags
  arguments := if name = "args" then source.arguments else cell.arguments
  results := if name = "results" then source.results else cell.results

theorem ite_eq_ite_of_ne {α : Type} {name name' : String} (h : name ≠ name') (key : String)
    (a b c : α) :
    (if name = key then a else if name' = key then b else c) =
      if name' = key then b else if name = key then a else c := by
  split
  · next hkey =>
    rw [if_neg]
    rintro rfl
    exact h hkey
  · rfl

/-- Different fields may be taken in any order. -/
theorem takeField_comm {name name' : String} (h : name ≠ name') (cell source source' : Cell) :
    (cell.takeField name source).takeField name' source' =
      (cell.takeField name' source').takeField name source := by
  simp only [takeField, mk.injEq]
  and_intros <;> exact ite_eq_ite_of_ne h.symm ..

/-- Whether what is read for a field is set in the same way whatever the cell is. -/
structure SetsAlone (field : Json.Field Cell) : Prop where
  settles : ∀ depth s, Settles (field.read depth s)
  outcome_eq : ∀ depth s l, outcome (field.read depth s) l =
    (outcome (field.read depth {}) l).map fun t => s.takeField field.name t

theorem setsAlone_setting {α : Type} {name : String} {read : Nat → List Char → Scan α}
    {set : α → Cell → Cell} (h : ∀ depth, Settles (read depth))
    (hset : ∀ a s t, s.takeField name (set a t) = set a s) :
    SetsAlone (.setting name read set) where
  settles depth s := settles_read_setting (h depth) s
  outcome_eq depth s l := by
    simp only [outcome, Field.setting, toOption_map, Option.map_map]
    congr 1
    funext p
    exact (hset p.1 s {}).symm

theorem setsAlone_of_mem : ∀ field ∈ form.fields, SetsAlone field := by
  simp only [form, List.forall_mem_cons]
  refine ⟨?_, ?_, ?_, ?_, ?_, ?_, ?_, ?_, ?_, ?_, ?_, by simp⟩
  · exact setsAlone_setting (fun _ => settles_readString) fun _ _ _ => by simp [takeField]
  · exact setsAlone_setting (fun _ => settles_readOption settles_readString)
      fun _ _ _ => by simp [takeField]
  · exact setsAlone_setting settles_readImports fun _ _ _ => by simp [takeField]
  · exact setsAlone_setting (fun _ => settles_readList Binding.settles_read)
      fun _ _ _ => by simp [takeField]
  · exact setsAlone_setting (fun _ => settles_readList Columns.settles_read)
      fun _ _ _ => by simp [takeField]
  · exact setsAlone_setting (fun _ => settles_readBool) fun _ _ _ => by simp [takeField]
  · exact setsAlone_setting (fun _ => settles_readBool) fun _ _ _ => by simp [takeField]
  · exact setsAlone_setting (fun _ => settles_readOption settles_readString)
      fun _ _ _ => by simp [takeField]
  · exact setsAlone_setting (fun _ => settles_readList fun _ => settles_readString)
      fun _ _ _ => by simp [takeField]
  · exact setsAlone_setting (fun _ => settles_readList fun _ => settles_readString)
      fun _ _ _ => by simp [takeField]
  · exact setsAlone_setting ResultShape.settles_read fun _ _ _ => by simp [takeField]

/-! ### Texts -/

theorem finish_spaces {α : Type} (a : α) {space : List Char} (h : IsSpaces space) :
    finish (a, space) = .ok a := by
  have hskip := skipSpace_append h []
  rw [List.append_nil] at hskip
  rw [finish, hskip]
  rfl

/-- The allowance that the fields of a cell are read with. -/
def fieldDepth : Nat := 126

theorem toOption_parse (o : ObjectText) :
    (parse o.text).toOption = (o.members.foldlM (form.step fieldDepth) ({}, [])).map Prod.fst := by
  have hfields : ∀ field ∈ form.fields, ∀ s, Settles (field.read fieldDepth s) :=
    fun field hfield => (setsAlone_of_mem field hfield).settles fieldDepth
  have hread := RecordForm.toOption_read_object hfields o.space_spaces o.isValue {} o.after
  have hspace := (RecordForm.settles_read
    (fun field hfield => (setsAlone_of_mem field hfield).settles) {} maxDepth).append_spaces
    o.before_spaces
  rw [parse, ObjectText.text, String.toList_ofList, hspace, toOption_bind,
    show maxDepth = fieldDepth + 1 from rfl, hread]
  cases o.members.foldlM (form.step fieldDepth) ({}, []) with
  | none => rfl
  | some state => simp [finish_spaces, o.after_spaces, Except.toOption]

theorem toOption_parse_alone {m : Member} (h : IsValue m.value.content) :
    (parse m.alone).toOption = (form.step fieldDepth ({}, []) m).map Prod.fst := by
  have hparse := toOption_parse ⟨[], [], [m], [], isSpaces_nil, isSpaces_nil, isSpaces_nil,
    by simpa using h⟩
  rw [ObjectText.text, List.nil_append, List.append_nil] at hparse
  rw [Member.alone, hparse, List.foldlM_cons]
  cases form.step fieldDepth ({}, []) m <;> rfl

/-- A step reads the member as if it stood alone, and refuses a name that was read before. -/
theorem step_eq {m : Member} (h : IsValue m.value.content) (cell : Cell) (names : List String) :
    form.step fieldDepth (cell, names) m = m.name?.bind fun name =>
      if name ∈ names then none
      else (parse m.alone).toOption.map fun t => (cell.takeField name t, name :: names) := by
  rw [toOption_parse_alone h, RecordForm.step, RecordForm.step]
  cases m.name? with
  | none => rfl
  | some name =>
      simp only [Option.bind_some]
      cases hfind : form.fields.find? (·.name == name) with
      | none =>
          have hstrict : form.lenient = false := rfl
          simp [hstrict]
      | some field =>
          have hname : field.name = name := by simpa using List.find?_some hfind
          have hset := (setsAlone_of_mem field (List.mem_of_find?_eq_some hfind)).outcome_eq
            fieldDepth cell m.value.content
          simp only [List.not_mem_nil, if_false, hset, hname, Option.map_map]
          rfl

/-- What was read for a member: the name that its key stands for, and the cell that it makes
alone. -/
def Reading (m : Member) (r : String × Cell) : Prop :=
  m.name? = some r.1 ∧ parse m.alone = .ok r.2

/-- A cell with the fields of these names as they are in these cells. -/
def takeFields (cell : Cell) (readings : List (String × Cell)) : Cell :=
  readings.foldl (fun cell r => cell.takeField r.1 r.2) cell

theorem foldlM_step_eq_some_iff {members : List Member}
    (hvalues : ∀ m ∈ members, IsValue m.value.content) {start cell : Cell} {names : List String} :
    (members.foldlM (form.step fieldDepth) (start, names)).map Prod.fst = some cell ↔
      ∃ readings, List.Forall₂ Reading members readings ∧ (readings.map Prod.fst).Nodup ∧
        (∀ r ∈ readings, r.1 ∉ names) ∧ cell = start.takeFields readings := by
  -- the names that were read before stand for the members that were read before
  induction members generalizing start names with
  | nil => simp [takeFields, eq_comm]
  | cons m ms ih =>
      obtain ⟨hvalue, hvalues⟩ := List.forall_mem_cons.1 hvalues
      rw [List.foldlM_cons, step_eq hvalue, Option.bind_eq_bind]
      constructor
      · intro h
        cases hname : m.name? with
        | none => simp [hname] at h
        | some name =>
            rw [hname, Option.bind_some] at h
            by_cases hmem : name ∈ names
            · simp [hmem] at h
            · cases halone : (parse m.alone).toOption with
              | none => simp [halone] at h
              | some t =>
                  rw [if_neg hmem, halone, Option.map_some, Option.bind_some] at h
                  obtain ⟨readings, hreadings, hnodup, hfresh, rfl⟩ := (ih hvalues).1 h
                  refine ⟨(name, t) :: readings, .cons ⟨hname, eq_ok_of_toOption halone⟩ hreadings,
                    ?_, ?_, rfl⟩
                  · rw [List.map_cons, List.nodup_cons, List.mem_map]
                    refine ⟨?_, hnodup⟩
                    rintro ⟨r, hr, hsame⟩
                    exact hfresh r hr (hsame ▸ List.mem_cons_self)
                  · rw [List.forall_mem_cons]
                    exact ⟨hmem, fun r hr hold => hfresh r hr (List.mem_cons_of_mem _ hold)⟩
      · rintro ⟨_, hreadings, hnodup, hfresh, rfl⟩
        cases hreadings with
        | @cons _ r _ readings hreading hreadings =>
            obtain ⟨hname, halone⟩ := hreading
            obtain ⟨hmem, hfresh⟩ := List.forall_mem_cons.1 hfresh
            rw [List.map_cons, List.nodup_cons, List.mem_map] at hnodup
            rw [hname, Option.bind_some, if_neg hmem, halone]
            refine (ih hvalues).2 ⟨readings, hreadings, hnodup.2, fun s hs hold => ?_, rfl⟩
            rcases List.mem_cons.1 hold with hsame | hold
            · exact hnodup.1 ⟨s, hs, hsame⟩
            · exact hfresh s hs hold

/-- The record that is read of an object. -/
theorem parse_eq_ok_iff (o : ObjectText) {cell : Cell} :
    parse o.text = .ok cell ↔ ∃ readings, List.Forall₂ Reading o.members readings ∧
      (readings.map Prod.fst).Nodup ∧ cell = takeFields {} readings := by
  rw [← toOption_eq_some_iff, toOption_parse, foldlM_step_eq_some_iff o.isValue]
  simp

/-- The fields may be taken in any order, each of them once. -/
theorem takeFields_perm {readings readings' : List (String × Cell)} (h : readings.Perm readings')
    (hnodup : (readings.map Prod.fst).Nodup) (cell : Cell) :
    cell.takeFields readings = cell.takeFields readings' := by
  refine h.foldl_eq' (fun r hr r' hr' cell => ?_) cell
  by_cases hsame : r.1 = r'.1
  · rw [List.inj_on_of_nodup_map hnodup hr hr' hsame]
  · exact takeField_comm hsame cell r.2 r'.2

theorem parse_eq_ok_of_perm {o o' : ObjectText} (h : o.members.Perm o'.members) {cell : Cell}
    (hparse : parse o.text = .ok cell) : parse o'.text = .ok cell := by
  obtain ⟨readings, hreadings, hnodup, rfl⟩ := (parse_eq_ok_iff o).1 hparse
  obtain ⟨readings', hreadings', hperm⟩ := List.perm_comp_forall₂ h.symm hreadings
  refine (parse_eq_ok_iff o').2 ⟨readings', hreadings', ?_, ?_⟩
  · exact (hperm.map Prod.fst).nodup_iff.2 hnodup
  · exact takeFields_perm hperm.symm hnodup {}

theorem map_name?_eq {members : List Member} {readings : List (String × Cell)}
    (h : List.Forall₂ Reading members readings) :
    members.map Member.name? = (readings.map Prod.fst).map some := by
  induction h with
  | nil => rfl
  | cons hr _ ih => rw [List.map_cons, List.map_cons, List.map_cons, hr.1, ih]

/-- Only a key that stands for the name of a field can be read. -/
theorem exists_name?_of_parse_alone {m : Member} (h : IsValue m.value.content) {cell : Cell}
    (hparse : parse m.alone = .ok cell) : ∃ name ∈ fieldNames, m.name? = some name := by
  have hstep := congrArg Except.toOption hparse
  rw [toOption_parse_alone h, RecordForm.step] at hstep
  cases hname : m.name? with
  | none => simp [hname, Except.toOption] at hstep
  | some name =>
      refine ⟨name, ?_, rfl⟩
      cases hfind : form.fields.find? (·.name == name) with
      | none =>
          have hstrict : form.lenient = false := rfl
          simp [hname, hfind, hstrict, Except.toOption] at hstep
      | some field =>
          have hsame : field.name = name := by simpa using List.find?_some hfind
          exact List.mem_map.2 ⟨field, List.mem_of_find?_eq_some hfind, hsame⟩

/-- Whether an object can be read. -/
theorem exists_parse_eq_ok_iff (o : ObjectText) :
    (∃ cell, parse o.text = .ok cell) ↔
      (o.members.map Member.name?).Nodup ∧ ∀ m ∈ o.members, ∃ cell, parse m.alone = .ok cell := by
  constructor
  · rintro ⟨cell, hparse⟩
    obtain ⟨readings, hreadings, hnodup, -⟩ := (parse_eq_ok_iff o).1 hparse
    refine ⟨?_, forall_mem_of_forall₂ hreadings.flip fun r m hr => ⟨r.2, hr.2⟩⟩
    rw [map_name?_eq hreadings]
    exact hnodup.map (Option.some_injective String)
  · rintro ⟨hnodup, halone⟩
    have hreading : ∀ m ∈ o.members, ∃ r, Reading m r := by
      intro m hm
      obtain ⟨cell, hcell⟩ := halone m hm
      obtain ⟨name, -, hname⟩ := exists_name?_of_parse_alone (o.isValue m hm) hcell
      exact ⟨(name, cell), hname, hcell⟩
    obtain ⟨readings, hreadings⟩ := exists_forall₂_of_forall_mem hreading
    rw [map_name?_eq hreadings] at hnodup
    exact ⟨_, (parse_eq_ok_iff o).2 ⟨readings, hreadings, hnodup.of_map some, rfl⟩⟩

/-- What is read of an object depends on what is read of each member. -/
theorem toOption_parse_congr {o o' : ObjectText}
    (h : o.members.map Reading = o'.members.map Reading) :
    (parse o.text).toOption = (parse o'.text).toOption := by
  have hreading : ∀ readings, List.Forall₂ Reading o.members readings ↔
      List.Forall₂ Reading o'.members readings := by
    intro readings
    have hmap := fun ms : List Member =>
      List.forall₂_map_left_iff (R := fun P r => P r) (f := Reading) (l := ms) (u := readings)
    exact (hmap o.members).symm.trans (h ▸ hmap o'.members)
  refine Option.ext fun cell => ?_
  rw [toOption_eq_some_iff, toOption_eq_some_iff, parse_eq_ok_iff, parse_eq_ok_iff]
  simp only [hreading]

/-! ### Imports -/

/-- Whether a text is that of a string that stands for `s`. -/
def SpellsString (l : List Char) (s : String) : Prop :=
  ∃ parts, l = stringChars parts ∧ StringPart.decode parts = some s.toList

theorem outcome_readImports {depth : Nat} {l : List Char} :
    outcome (readImports depth) l = (outcome (readValue depth) l).bind importsOfJson? := by
  rw [outcome, outcome, readImports, toOption_bind]
  cases readValue depth l with
  | error f => rfl
  | ok p =>
      simp only [Except.toOption, Option.bind_some, Option.map_some]
      cases importsOfJson? p.1 <;> rfl

theorem outcome_readValue_string {depth : Nat} {l : List Char} {s : String}
    (h : SpellsString l s) : outcome (readValue depth) l = some (.string s) := by
  obtain ⟨parts, rfl, hdecode⟩ := h
  rw [outcome_readValue_stringChars, hdecode, Option.map_some, String.ofList_toList]

theorem SpellsString.isValue {l : List Char} {s : String} (h : SpellsString l s) : IsValue l := by
  obtain ⟨parts, rfl, -⟩ := h
  exact .string parts

theorem outcome_readString {l : List Char} {s : String} (h : SpellsString l s) :
    outcome readString l = some s := by
  obtain ⟨parts, rfl, hdecode⟩ := h
  have hscan := toOption_scanText parts []
  rw [hdecode, Option.map_some] at hscan
  rw [outcome, readString, stringChars, skipSpace_cons rfl]
  dsimp only
  rw [if_pos rfl, toOption_map, hscan]
  simp

theorem outcome_readValue_singleton {depth : Nat} {space : List Char} (hspace : IsSpaces space)
    {e : Spaced (List Char)} {s : String} (h : SpellsString e.content s) :
    outcome (readValue (depth + 1)) ('[' :: arrayChars space [e]) = some (.array [.string s]) := by
  rw [outcome_readValue_arrayChars (List.forall_mem_singleton.2 h.isValue) hspace]
  simp [outcome_readValue_string h]

/-- An import alone is read as the list of it, unless it is blank. -/
theorem outcome_readImports_eq {space l : List Char} (hspace : IsSpaces space)
    {e : Spaced (List Char)} {s : String} (hl : SpellsString l s) (he : SpellsString e.content s)
    (hblank : ¬ ∀ c ∈ s.toList, Text.isBlank c) :
    outcome (readImports fieldDepth) l =
      outcome (readImports fieldDepth) ('[' :: arrayChars space [e]) := by
  have hall : s.toList.all Text.isBlank = false := by
    rw [Bool.eq_false_iff, ne_eq, List.all_eq_true]
    exact hblank
  rw [outcome_readImports, outcome_readImports, outcome_readValue_string hl,
    show fieldDepth = 125 + 1 from rfl, outcome_readValue_singleton hspace he]
  simp [importsOfJson?, strings?, hall]

/-- A member alone sets the field that its key names. -/
theorem toOption_parse_alone_of_find {α : Type} {name : String} {read : Nat → List Char → Scan α}
    {set : α → Cell → Cell} {m : Member} (h : IsValue m.value.content) (hname : m.name? = some name)
    (hfind : form.fields.find? (·.name == name) = some (.setting name read set)) :
    (parse m.alone).toOption = (outcome (read fieldDepth) m.value.content).map (set · {}) := by
  rw [toOption_parse_alone h, RecordForm.step, hname, Option.bind_some, hfind]
  simp [outcome, Field.setting, toOption_map, Function.comp_def]

theorem toOption_parse_alone_imports {m : Member} (h : IsValue m.value.content)
    (hname : m.name? = some "imports") :
    (parse m.alone).toOption = (outcome (readImports fieldDepth) m.value.content).map
      fun imports => { imports } :=
  toOption_parse_alone_of_find h hname rfl

theorem reading_eq_of_imports {m m' : Member} (h : IsValue m.value.content)
    (h' : IsValue m'.value.content) (hname : m.name? = some "imports")
    (hname' : m'.name? = some "imports")
    (hsame : outcome (readImports fieldDepth) m.value.content =
      outcome (readImports fieldDepth) m'.value.content) : Reading m = Reading m' := by
  funext r
  rw [Reading, Reading, hname, hname', ← toOption_eq_some_iff, ← toOption_eq_some_iff,
    toOption_parse_alone_imports h hname, toOption_parse_alone_imports h' hname', hsame]

/-! ### Objects -/

/-- What the members of an object decide. -/
structure ReadByMembers (o : ObjectText) : Prop where
  /-- An object can be read if its keys stand for different names and each member can be
  read alone. -/
  exists_iff : (∃ cell, parse o.text = .ok cell) ↔
    (o.members.map Member.name?).Nodup ∧ ∀ m ∈ o.members, ∃ cell, parse m.alone = .ok cell
  /-- Each member sets the field that its key names, to what it sets it to alone; the other
  fields are as in a cell of which nothing is said. -/
  eq_takeFields : ∀ cell, parse o.text = .ok cell →
    ∃ readings, List.Forall₂ Reading o.members readings ∧ cell = takeFields {} readings
  unknown : ∀ m ∈ o.members, (∀ name ∈ fieldNames, m.name? ≠ some name) →
    ∀ cell, parse o.text ≠ .ok cell
  repeated : ¬(o.members.map Member.name?).Nodup → ∀ cell, parse o.text ≠ .ok cell
  perm : ∀ o' : ObjectText, o'.members.Perm o.members →
    (parse o'.text).toOption = (parse o.text).toOption
  /-- One import that is not blank may be written without the list around it. -/
  imports : ∀ (o' : ObjectText) (before after : List Member) (m m' : Member) (s : String)
    (space : List Char) (e : Spaced (List Char)),
    o.members = before ++ m :: after → o'.members = before ++ m' :: after →
    m.name? = some "imports" → m'.name? = some "imports" →
    (¬ ∀ c ∈ s.toList, Text.isBlank c) → SpellsString m.value.content s →
    IsSpaces space → SpellsString e.content s → m'.value.content = '[' :: arrayChars space [e] →
    (parse o'.text).toOption = (parse o.text).toOption

/-- A cell is read member by member. -/
theorem readByMembers (o : ObjectText) : ReadByMembers o where
  exists_iff := exists_parse_eq_ok_iff o
  eq_takeFields cell hparse := by
    obtain ⟨readings, hreadings, -, hcell⟩ := (parse_eq_ok_iff o).1 hparse
    exact ⟨readings, hreadings, hcell⟩
  unknown m hm hunknown cell hparse := by
    obtain ⟨-, halone⟩ := (exists_parse_eq_ok_iff o).1 ⟨cell, hparse⟩
    obtain ⟨alone, halone⟩ := halone m hm
    obtain ⟨name, hfield, hname⟩ := exists_name?_of_parse_alone (o.isValue m hm) halone
    exact hunknown name hfield hname
  repeated hrepeated cell hparse :=
    hrepeated ((exists_parse_eq_ok_iff o).1 ⟨cell, hparse⟩).1
  perm o' hperm := by
    refine Option.ext fun cell => ?_
    rw [toOption_eq_some_iff, toOption_eq_some_iff]
    exact ⟨parse_eq_ok_of_perm hperm, parse_eq_ok_of_perm hperm.symm⟩
  imports o' before after m m' s space e ho ho' hname hname' hblank hl hspace he hlist := by
    have hsame := outcome_readImports_eq hspace hl he hblank
    rw [← hlist] at hsame
    have hreading := reading_eq_of_imports (o.isValue m (by simp [ho]))
      (o'.isValue m' (by simp [ho'])) hname hname' hsame
    refine toOption_parse_congr ?_
    rw [ho, ho', List.map_append, List.map_append, List.map_cons, List.map_cons, hreading]

/-! One cell in two spellings, with the members in another order and the import with and without
the list around it. -/

section Spellings

/-- The text of a string of characters as they are. -/
def plainChars (s : String) : List Char := stringChars (plainParts s)

/-- A member with an escape in its key and space in it. -/
def escapedMember : Member where
  key := .bare (plainParts "m" ++ escapedA :: plainParts "in")
  value := ⟨[' '], ['f', 'a', 'l', 's', 'e'], ['\n'], isSpaces_blank, isSpaces_newline⟩

def bodyMember : Member := .bare (plainParts "body") (plainChars "x := 1")

def importMember : Member := .bare (plainParts "imports") (plainChars "fmt")

/-- The import in a list. -/
def importsMember : Member :=
  .bare (plainParts "imports") ('[' :: arrayChars [' '] [.bare (plainChars "fmt")])

theorem isValue_importsMember : IsValue importsMember.value.content :=
  .array isSpaces_blank (List.forall_mem_singleton.2 (.string _))

def spacedObject : ObjectText where
  before := [' ']
  space := []
  members := [importMember, escapedMember, bodyMember]
  after := []
  before_spaces := isSpaces_blank
  space_spaces := isSpaces_nil
  after_spaces := isSpaces_nil
  isValue := by
    simp only [List.forall_mem_cons]
    exact ⟨.string _, .false, .string _, List.forall_mem_nil _⟩

/-- The members in another order. -/
def turnedObject : ObjectText where
  before := []
  space := [' ']
  members := [bodyMember, importMember, escapedMember]
  after := ['\n']
  before_spaces := isSpaces_nil
  space_spaces := isSpaces_blank
  after_spaces := isSpaces_newline
  isValue := by
    simp only [List.forall_mem_cons]
    exact ⟨.string _, .string _, .false, List.forall_mem_nil _⟩

/-- The import in a list as well. -/
def listedObject : ObjectText where
  before := []
  space := []
  members := [bodyMember, importsMember, escapedMember]
  after := []
  before_spaces := isSpaces_nil
  space_spaces := isSpaces_nil
  after_spaces := isSpaces_nil
  isValue := by
    simp only [List.forall_mem_cons]
    exact ⟨.string _, isValue_importsMember, .false, List.forall_mem_nil _⟩

/-- One key in two spellings. -/
def repeatingObject : ObjectText where
  before := []
  space := []
  members := [escapedMember, .bare (plainParts "main") ['t', 'r', 'u', 'e']]
  after := []
  before_spaces := isSpaces_nil
  space_spaces := isSpaces_nil
  after_spaces := isSpaces_nil
  isValue := by
    simp only [List.forall_mem_cons]
    exact ⟨.false, .true, List.forall_mem_nil _⟩

example :
    spacedObject.text = " \x7b\"imports\":\"fmt\",\"m\\u0061in\": false\n,\"body\":\"x := 1\"\x7d" ∧
    listedObject.text =
      "\x7b\"body\":\"x := 1\",\"imports\":[ \"fmt\"],\"m\\u0061in\": false\n\x7d" ∧
    repeatingObject.text = "\x7b\"m\\u0061in\": false\n,\"main\":true\x7d" := by
  decide

theorem spellsString_fmt : SpellsString (plainChars "fmt") "fmt" := ⟨_, rfl, by decide⟩

theorem reading_importMember : Reading importMember ("imports", { imports := ["fmt"] }) := by
  have hname : importMember.name? = some "imports" := by decide
  refine ⟨hname, eq_ok_of_toOption ?_⟩
  have hread : outcome (readImports fieldDepth) importMember.value.content = some ["fmt"] := by
    rw [outcome_readImports]
    exact congrArg (Option.bind · importsOfJson?) (outcome_readValue_string spellsString_fmt)
  rw [toOption_parse_alone_imports (.string _) hname, hread]
  rfl

theorem reading_escapedMember : Reading escapedMember ("main", { entryPoint := false }) := by
  refine ⟨by decide, eq_ok_of_toOption ?_⟩
  rw [toOption_parse_alone .false]
  rfl

theorem reading_bodyMember : Reading bodyMember ("body", { body := "x := 1" }) := by
  have hname : bodyMember.name? = some "body" := by decide
  have hfind : form.fields.find? (·.name == "body") =
      some (.setting "body" (fun _ => readString) fun a c => { c with body := a }) := rfl
  have hread : outcome readString bodyMember.value.content = some "x := 1" :=
    outcome_readString ⟨_, rfl, by decide⟩
  refine ⟨hname, eq_ok_of_toOption ?_⟩
  rw [toOption_parse_alone_of_find (.string _) hname hfind, hread]
  rfl

/-- A member is read in one way. -/
theorem rightUnique_reading : Relator.RightUnique Reading := by
  rintro m ⟨name, cell⟩ ⟨name', cell'⟩ ⟨hname, hcell⟩ ⟨hname', hcell'⟩
  have hnames := hname.symm.trans hname'
  have hcells := hcell.symm.trans hcell'
  cases hnames
  cases hcells
  rfl

/-- Any order, and a list of one import or the import alone; but no key twice. -/
theorem readByMembers_spacedObject :
    parse spacedObject.text = .ok { body := "x := 1", imports := ["fmt"], entryPoint := false } ∧
      parse listedObject.text = .ok { body := "x := 1", imports := ["fmt"], entryPoint := false } ∧
      ∀ cell, parse repeatingObject.text ≠ .ok cell := by
  have hspaced := readByMembers spacedObject
  have hparse : parse spacedObject.text =
      .ok { body := "x := 1", imports := ["fmt"], entryPoint := false } := by
    have halone : ∀ m ∈ spacedObject.members, ∃ cell, parse m.alone = .ok cell := by
      simp only [spacedObject, List.forall_mem_cons]
      exact ⟨⟨_, reading_importMember.2⟩, ⟨_, reading_escapedMember.2⟩, ⟨_, reading_bodyMember.2⟩,
        List.forall_mem_nil _⟩
    obtain ⟨cell, hcell⟩ := hspaced.exists_iff.2 ⟨by decide, halone⟩
    obtain ⟨readings, hreadings, rfl⟩ := hspaced.eq_takeFields cell hcell
    have hunique := rightUnique_reading.forall₂ hreadings
      (.cons reading_importMember (.cons reading_escapedMember (.cons reading_bodyMember .nil)))
    rw [hcell, hunique]
    rfl
  have hturned : (parse turnedObject.text).toOption = (parse spacedObject.text).toOption :=
    hspaced.perm turnedObject
      (List.perm_append_comm : ([bodyMember] ++ [importMember, escapedMember]).Perm _)
  have hlisted : (parse listedObject.text).toOption = (parse turnedObject.text).toOption :=
    (readByMembers turnedObject).imports listedObject [bodyMember] [escapedMember] importMember
      importsMember "fmt" [' '] (.bare (plainChars "fmt")) rfl rfl (by decide) (by decide)
      (fun hblank => absurd (hblank 'f' (by decide)) (by decide)) spellsString_fmt isSpaces_blank
      spellsString_fmt rfl
  refine ⟨hparse, eq_ok_of_toOption ?_, (readByMembers repeatingObject).repeated (by decide)⟩
  rw [hlisted, hturned, hparse]
  rfl

end Spellings

end Cell

end GoCell
