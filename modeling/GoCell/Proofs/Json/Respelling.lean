import GoCell.Proofs.Json.ValueReader
import Mathlib.Data.List.Sort

/-!
Texts that spell the same document. They may differ in space, in how strings and doubles are
written, in the order of members with different names, and in members that a later one of the
same name overwrites. Those of them that can be read are read as the same document.
-/

namespace GoCell.Json

/-! ### Members by name -/

/-- The value of the last member with a name. What stands before it with the same name is
overwritten. -/
def lastValue? (members : List Member) (name : String) : Option (List Char) :=
  (members.reverse.find? (·.name? == some name)).map (·.value.content)

theorem lastValue?_concat (members : List Member) (m : Member) (name : String) :
    lastValue? (members ++ [m]) name =
      if m.name? = some name then some m.value.content else lastValue? members name := by
  rw [lastValue?, List.reverse_append, List.reverse_singleton, List.singleton_append]
  by_cases hname : m.name? = some name
  · rw [List.find?_cons_of_pos (by simpa using hname), if_pos hname, Option.map_some]
  · rw [List.find?_cons_of_neg (by simpa using hname), if_neg hname, lastValue?]

theorem lastValue?_cons (m : Member) (members : List Member) (name : String) :
    lastValue? (m :: members) name =
      (lastValue? members name).or (if m.name? = some name then some m.value.content else none) := by
  rw [lastValue?, List.reverse_cons, List.find?_append, Option.map_or, ← lastValue?]
  by_cases hname : m.name? = some name
  · rw [List.find?_cons_of_pos (by simpa using hname), if_pos hname, Option.map_some]
  · rw [List.find?_cons_of_neg (by simpa using hname), if_neg hname, List.find?_nil,
      Option.map_none]

/-- In a list in order a name is set once. -/
theorem mem_setMember_iff {β : Type} {key : String} {value : β} {members : List (String × β)}
    (h : Ordered members) {m : String × β} :
    m ∈ setMember key value members ↔ m = (key, value) ∨ m.1 ≠ key ∧ m ∈ members := by
  fun_induction setMember key value members with
  | case1 => simp
  | case2 k v rest hlt =>
      have hfirst : ∀ m ∈ (k, v) :: rest, key < m.1 := by
        refine List.forall_mem_cons.2 ⟨hlt, fun m hm => hlt.trans ?_⟩
        exact (List.pairwise_cons.1 h).1 m hm
      rw [List.mem_cons]
      exact or_congr_right ⟨fun hm => ⟨(hfirst m hm).ne', hm⟩, And.right⟩
  | case3 v rest hlt =>
      have hfirst := (List.pairwise_cons.1 h).1
      rw [List.mem_cons, List.mem_cons]
      refine or_congr_right ⟨fun hm => ⟨(hfirst m hm).ne', .inr hm⟩, ?_⟩
      rintro ⟨hne, rfl | hm⟩
      · exact absurd rfl hne
      · exact hm
  | case4 k v rest hlt hne ih =>
      rw [List.mem_cons, List.mem_cons, ih (List.pairwise_cons.1 h).2]
      constructor
      · rintro (rfl | hm | ⟨hname, hm⟩)
        · exact .inr ⟨Ne.symm hne, .inl rfl⟩
        · exact .inl hm
        · exact .inr ⟨hname, .inr hm⟩
      · rintro (hm | ⟨hname, rfl | hm⟩)
        · exact .inr (.inl hm)
        · exact .inl rfl
        · exact .inr (.inr ⟨hname, hm⟩)

/-- What an object is read as: each name with what the last member of this name is read as. -/
structure ReadMembers (depth : Nat) (members : List Member) (read : List (String × Json)) :
    Prop where
  ordered : Ordered read
  exists_of_mem : ∀ name j, (name, j) ∈ read →
    ∃ l, lastValue? members name = some l ∧ outcome (readValue depth) l = some j
  exists_of_lastValue? : ∀ name l, lastValue? members name = some l →
    ∃ j, outcome (readValue depth) l = some j ∧ (name, j) ∈ read

theorem readMembers_of_foldlM {depth : Nat} {members : List Member} {read : List (String × Json)}
    (h : members.foldlM (memberStep depth) [] = some read) : ReadMembers depth members read := by
  -- the last member is set last, whatever was set before it
  induction members using List.reverseRecOn generalizing read with
  | nil =>
      cases h
      exact ⟨List.Pairwise.nil, by simp, by simp [lastValue?]⟩
  | append_singleton members m ih =>
      rw [List.foldlM_append, Option.bind_eq_bind, Option.bind_eq_some_iff] at h
      obtain ⟨before, hbefore, h⟩ := h
      obtain ⟨hordered, hmem, hlast⟩ := ih hbefore
      rw [List.foldlM_cons, Option.bind_eq_bind, Option.bind_eq_some_iff] at h
      obtain ⟨after, hstep, heq⟩ := h
      cases heq
      obtain ⟨name, hname, hstep⟩ := Option.bind_eq_some_iff.1 hstep
      obtain ⟨j, hj, rfl⟩ := Option.map_eq_some_iff.1 hstep
      refine ⟨ordered_setMember hordered, fun name' j' hm => ?_, fun name' l hl => ?_⟩
      · rcases (mem_setMember_iff hordered).1 hm with heq | ⟨hne, hm⟩
        · cases heq
          exact ⟨m.value.content, by rw [lastValue?_concat, if_pos hname], hj⟩
        · obtain ⟨l, hl, hread⟩ := hmem name' j' hm
          refine ⟨l, ?_, hread⟩
          rw [lastValue?_concat, hname, if_neg fun heq => hne (Option.some.inj heq).symm, hl]
      · rw [lastValue?_concat, hname] at hl
        split at hl
        · next heq =>
          cases heq
          cases hl
          exact ⟨j, hj, (mem_setMember_iff hordered).2 (.inl rfl)⟩
        · next hne =>
          obtain ⟨j', hread, hm⟩ := hlast name' l hl
          refine ⟨j', hread, (mem_setMember_iff hordered).2 (.inr ⟨fun heq => hne ?_, hm⟩)⟩
          exact congrArg some heq.symm

/-! ### Spellings -/

/-- Whether a text is a number that is read as this double. -/
structure SpellsReal (l : List Char) (x : Binary64) : Prop where
  isNumber : IsNumber l
  parse_eq : parse (String.ofList l) = .ok (.real x)

/-- The double that a document is, if it is one. -/
def real? : Json → Option Binary64
  | .real x => some x
  | _ => none

theorem spellsReal_of_real? {l : List Char} {x : Binary64} (hnumber : IsNumber l)
    (h : (parse (String.ofList l)).toOption.bind real? = some x) : SpellsReal l x := by
  obtain ⟨j, hj, hx⟩ := Option.bind_eq_some_iff.1 h
  refine ⟨hnumber, ?_⟩
  rw [eq_ok_of_toOption hj]
  unfold real? at hx
  split at hx
  · rw [Option.some.inj hx]
  · cases hx

/-- Whether two texts of values differ, at any depth, in nothing but space, the spelling of
strings and of doubles, the order of members with different names, and members that a later
one of the same name overwrites. -/
inductive Respelled : List Char → List Char → Prop
  | same {l : List Char} (h : IsValue l) : Respelled l l
  | real {l l' : List Char} {x : Binary64} (h : SpellsReal l x) (h' : SpellsReal l' x) :
      Respelled l l'
  | string {parts parts' : List StringPart}
      (h : StringPart.decode parts = StringPart.decode parts') :
      Respelled (stringChars parts) (stringChars parts')
  | array {space space' : List Char} {items items' : List (Spaced (List Char))}
      (hspace : IsSpaces space) (hspace' : IsSpaces space') (hlength : items.length = items'.length)
      (hitems : ∀ e ∈ items.zip items', Respelled e.1.content e.2.content) :
      Respelled ('[' :: arrayChars space items) ('[' :: arrayChars space' items')
  | object {space space' : List Char} {members members' : List Member}
      (hspace : IsSpaces space) (hspace' : IsSpaces space')
      (hvalues : ∀ m ∈ members, IsValue m.value.content)
      (hvalues' : ∀ m ∈ members', IsValue m.value.content)
      (hnames : ∀ name, (lastValue? members name).isSome = (lastValue? members' name).isSome)
      (hlast : ∀ name l l', lastValue? members name = some l → lastValue? members' name = some l' →
        Respelled l l') :
      Respelled ('\x7b' :: objectChars space members) ('\x7b' :: objectChars space' members')

theorem isValue_of_zip {items items' : List (Spaced (List Char))}
    (hlength : items.length = items'.length)
    (h : ∀ e ∈ items.zip items', IsValue e.1.content ∧ IsValue e.2.content) :
    (∀ e ∈ items, IsValue e.content) ∧ ∀ e ∈ items', IsValue e.content := by
  constructor
  · rw [← List.map_fst_zip hlength.le, List.forall_mem_map]
    exact fun e he => (h e he).1
  · rw [← List.map_snd_zip hlength.ge, List.forall_mem_map]
    exact fun e he => (h e he).2

theorem Respelled.isValue {l l' : List Char} (h : Respelled l l') : IsValue l ∧ IsValue l' := by
  induction h with
  | same h => exact ⟨h, h⟩
  | real h h' => exact ⟨.number h.isNumber, .number h'.isNumber⟩
  | string h => exact ⟨.string _, .string _⟩
  | array hspace hspace' hlength _ ih =>
      obtain ⟨hvalues, hvalues'⟩ := isValue_of_zip hlength ih
      exact ⟨.array hspace hvalues, .array hspace' hvalues'⟩
  | object hspace hspace' hvalues hvalues' _ _ _ =>
      exact ⟨.object hspace hvalues, .object hspace' hvalues'⟩

/-! ### What they are read as -/

variable {depth : Nat}

/-- A number is read the same at every depth. -/
theorem outcome_readValue_number {l : List Char} (h : IsNumber l) (depth' : Nat) :
    outcome (readValue depth) l = outcome (readValue depth') l := by
  obtain ⟨n, hn⟩ := h.exists_scanNumber_eq
  obtain ⟨c, r, rfl, hc⟩ := h.exists_cons
  have hscan := hn .endInValue [] endsNumber_nil
  rw [List.append_nil] at hscan
  rw [outcome, outcome, readValue_number hc, readValue_number hc, hscan]

theorem outcome_of_parse {text : String} {j : Json} (h : parse text = .ok j) :
    outcome (readValue maxDepth) text.toList = some j := by
  obtain ⟨_, hread, -⟩ := exists_readValue_of_parse h
  rw [outcome, hread]
  rfl

theorem SpellsReal.outcome_eq {l : List Char} {x : Binary64} (h : SpellsReal l x) (depth : Nat) :
    outcome (readValue depth) l = some (.real x) := by
  have hread := outcome_of_parse h.parse_eq
  rw [String.toList_ofList] at hread
  rw [outcome_readValue_number h.isNumber maxDepth, hread]

theorem eq_of_mapM_outcome {items items' : List (Spaced (List Char))} {js js' : List Json}
    (h : List.Forall₂ (fun e e' => ∀ j j', outcome (readValue depth) e.content = some j →
      outcome (readValue depth) e'.content = some j' → j = j') items items')
    (hjs : items.mapM (fun e => outcome (readValue depth) e.content) = some js)
    (hjs' : items'.mapM (fun e => outcome (readValue depth) e.content) = some js') : js = js' := by
  induction h generalizing js js' with
  | nil => exact Option.some.inj (hjs.symm.trans hjs')
  | cons hitem _ ih =>
      simp only [List.mapM_cons, Option.bind_eq_bind, Option.bind_eq_some_iff] at hjs hjs'
      obtain ⟨j, hj, rest, hrest, heq⟩ := hjs
      obtain ⟨j', hj', rest', hrest', heq'⟩ := hjs'
      cases heq
      cases heq'
      rw [hitem j j' hj hj', ih hrest hrest']

theorem ReadMembers.mem_of_mem {members members' : List Member}
    {read read' : List (String × Json)}
    (hnames : ∀ name, (lastValue? members name).isSome = (lastValue? members' name).isSome)
    (h : ∀ name l l', lastValue? members name = some l → lastValue? members' name = some l' →
      ∀ j j', outcome (readValue depth) l = some j → outcome (readValue depth) l' = some j' → j = j')
    (hread : ReadMembers depth members read) (hread' : ReadMembers depth members' read')
    {m : String × Json} (hm : m ∈ read) : m ∈ read' := by
  obtain ⟨name, j⟩ := m
  obtain ⟨l, hl, hj⟩ := hread.exists_of_mem name j hm
  have hsome := hnames name
  rw [hl, Option.isSome_some] at hsome
  obtain ⟨l', hl'⟩ := Option.isSome_iff_exists.1 hsome.symm
  obtain ⟨j', hj', hm'⟩ := hread'.exists_of_lastValue? name l' hl'
  rwa [h name l l' hl hl' j j' hj hj']

/-- Lists in order with the same members are the same. -/
theorem ReadMembers.eq {members members' : List Member} {read read' : List (String × Json)}
    (hnames : ∀ name, (lastValue? members name).isSome = (lastValue? members' name).isSome)
    (h : ∀ name l l', lastValue? members name = some l → lastValue? members' name = some l' →
      ∀ j j', outcome (readValue depth) l = some j → outcome (readValue depth) l' = some j' → j = j')
    (hread : ReadMembers depth members read) (hread' : ReadMembers depth members' read') :
    read = read' := by
  have : Std.Irrefl fun m m' : String × Json => m.1 < m'.1 := ⟨fun m => lt_irrefl m.1⟩
  refine hread.ordered.eq_of_mem_iff hread'.ordered fun m => ⟨mem_of_mem hnames h hread hread', ?_⟩
  refine mem_of_mem (fun name => (hnames name).symm) (fun name l' l hl' hl j' j hj' hj => ?_)
    hread' hread
  exact (h name l l' hl hl' j j' hj hj').symm

/-- Texts that spell the same document are read as the same one, where they can be read. -/
theorem Respelled.outcome_eq {l l' : List Char} (h : Respelled l l') {j j' : Json}
    (hj : outcome (readValue depth) l = some j) (hj' : outcome (readValue depth) l' = some j') :
    j = j' := by
  induction h generalizing depth j j' with
  | same _ => exact Option.some.inj (hj.symm.trans hj')
  | real h h' =>
      rw [h.outcome_eq] at hj
      rw [h'.outcome_eq] at hj'
      exact Option.some.inj (hj.symm.trans hj')
  | string h =>
      rw [outcome_readValue_stringChars] at hj hj'
      rw [h] at hj
      exact Option.some.inj (hj.symm.trans hj')
  | array hspace hspace' hlength hitems ih =>
      cases depth with
      | zero =>
          rw [outcome_readValue_zero (.inl rfl)] at hj
          cases hj
      | succ depth =>
          obtain ⟨hvalues, hvalues'⟩ := isValue_of_zip hlength fun e he => (hitems e he).isValue
          rw [outcome_readValue_arrayChars hvalues hspace] at hj
          rw [outcome_readValue_arrayChars hvalues' hspace'] at hj'
          obtain ⟨js, hjs, rfl⟩ := Option.map_eq_some_iff.1 hj
          obtain ⟨js', hjs', rfl⟩ := Option.map_eq_some_iff.1 hj'
          refine congrArg Json.array (eq_of_mapM_outcome ?_ hjs hjs')
          exact List.forall₂_iff_zip.2 ⟨hlength, fun he j j' => ih _ he⟩
  | object hspace hspace' hvalues hvalues' hnames hlast ih =>
      cases depth with
      | zero =>
          rw [outcome_readValue_zero (.inr rfl)] at hj
          cases hj
      | succ depth =>
          rw [outcome_readValue_objectChars hvalues hspace] at hj
          rw [outcome_readValue_objectChars hvalues' hspace'] at hj'
          obtain ⟨read, hread, rfl⟩ := Option.map_eq_some_iff.1 hj
          obtain ⟨read', hread', rfl⟩ := Option.map_eq_some_iff.1 hj'
          refine congrArg Json.object (ReadMembers.eq hnames ?_ (readMembers_of_foldlM hread)
            (readMembers_of_foldlM hread'))
          exact fun name l l' hl hl' j j' => ih name l l' hl hl'

end GoCell.Json
