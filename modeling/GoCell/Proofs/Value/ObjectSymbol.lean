import GoCell.Proofs.Json.AcceptedText
import GoCell.Proofs.Json.Respelling
import GoCell.Proofs.Value.JsonRoundTrip

/-!
Objects as symbols. An object that is not itself a symbol's text is read as the symbol named by
the compact text of the object, so objects that are spelled in different ways have one name,
and the name is read as the same object again.
-/

namespace GoCell

namespace Json

/-- An object without the space around it. -/
def ObjectText.content (o : ObjectText) : List Char := '\x7b' :: objectChars o.space o.members

theorem ObjectText.outcome_of_parse {o : ObjectText} {j : Json} (h : parse o.text = .ok j) :
    outcome (readValue maxDepth) o.content = some j := by
  have hread := Json.outcome_of_parse h
  have hends : EndsNumber o.after := by
    simpa using endsNumber_nil.append_spaces o.after_spaces
  rw [text, String.toList_ofList, outcome,
    (settles_readValue maxDepth).append_spaces o.before_spaces] at hread
  rw [(settled_readValue (.object o.space_spaces o.isValue) maxDepth) o.after hends,
    Option.map_map] at hread
  simpa [content, Function.comp_def] using hread

theorem ObjectText.exists_members_of_parse {o : ObjectText} {j : Json}
    (h : parse o.text = .ok j) :
    ∃ members, j = .object members ∧ ReadMembers 126 o.members members := by
  have hread := outcome_of_parse h
  rw [content, show maxDepth = 126 + 1 from rfl,
    outcome_readValue_objectChars o.isValue o.space_spaces] at hread
  obtain ⟨members, hmembers, rfl⟩ := Option.map_eq_some_iff.1 hread
  exact ⟨members, rfl, readMembers_of_foldlM hmembers⟩

theorem ObjectText.eq_of_respelled {o o' : ObjectText} (h : Respelled o.content o'.content)
    {j j' : Json} (hj : parse o.text = .ok j) (hj' : parse o'.text = .ok j') : j = j' :=
  h.outcome_eq (outcome_of_parse hj) (outcome_of_parse hj')

end Json

namespace Value

open Json

theorem symbolName?_eq_none {members : List (String × Json)}
    (h : ∀ name, members ≠ [("symbol", .string name)]) : symbolName? members = none := by
  unfold symbolName?
  split
  · next key name =>
    rw [if_neg]
    rintro rfl
    exact h name rfl
  · rfl

theorem ofJson_object {members : List (String × Json)}
    (h : ∀ name, members ≠ [("symbol", .string name)]) :
    ofJson (.object members) = .symbol (Json.object members).render := by
  rw [ofJson, symbolName?_eq_none h, Option.getD_none]

/-- An object that spells no symbol is read as the symbol that is named by a text of this
object. However the object is spelled, the name is the same. -/
theorem parse_object_canonical :
    (∀ (text : String) (members : List (String × Json)),
      Json.parse text = .ok (.object members) →
      (∀ name, members ≠ [("symbol", .string name)]) →
      ∃ n, parse text = .ok (.symbol n) ∧ Json.parse n = .ok (.object members) ∧
        parse n = .ok (.symbol n)) ∧
    (∀ (text : String) (members : List (String × Json)),
      Json.parse text = .ok (.object members) → ∃ o : ObjectText, o.text = text) ∧
    ∀ (o o' : ObjectText) (v v' : Value), Respelled o.content o'.content →
      parse o.text = .ok v → parse o'.text = .ok v' → v = v' := by
  refine ⟨fun text members hread hnot => ?_, fun text members => exists_objectText_of_parse,
    fun o o' v v' hsame hv hv' => ?_⟩
  · have hname : Json.parse (Json.object members).render = .ok (.object members) :=
      parse_render (readable_of_parse hread)
    refine ⟨(Json.object members).render, ?_, hname, ?_⟩
    · rw [parse, hread, Except.map, ofJson_object hnot]
    · rw [parse, hname, Except.map, ofJson_object hnot]
  · obtain ⟨j, hj, rfl⟩ := map_eq_ok_iff.1 hv
    obtain ⟨j', hj', rfl⟩ := map_eq_ok_iff.1 hv'
    rw [ObjectText.eq_of_respelled hsame hj hj']

/-! Two spellings of one object: a name set twice, an escape in a name, the names in another
order, a double with another exponent, and space. -/

section Spellings

def partA : StringPart := .plain 'a' (by decide) (by decide) (by decide)

def partB : StringPart := .plain 'b' (by decide) (by decide) (by decide)

def twoAndAHalf : Binary64 := Binary64.ofUnits false (5 * Binary64.unitsPerOne) 2

theorem spellsReal_fixed : SpellsReal ['2', '.', '5', '0'] twoAndAHalf := by
  refine spellsReal_of_real? ?_ (by decide +kernel)
  exact @IsNumber.mk [] ['2'] ['.', '5', '0'] [] (.inl rfl) rfl (by simp) (.present rfl) .absent

theorem spellsReal_scaled : SpellsReal ['2', '5', 'e', '-', '1'] twoAndAHalf := by
  refine spellsReal_of_real? ?_ (by decide +kernel)
  exact @IsNumber.mk [] ['2', '5'] [] ['e', '-', '1'] (.inl rfl) rfl (by simp) .absent
    (.present (.inl rfl) (.inr (.inr rfl)) rfl)

def fixedArray : List Char := '[' :: arrayChars [] [.bare ['2', '.', '5', '0']]

def scaledArray : List Char := '[' :: arrayChars [' '] [.bare ['2', '5', 'e', '-', '1']]

theorem respelled_array : Respelled fixedArray scaledArray := by
  refine .array isSpaces_nil isSpaces_blank rfl (List.forall_mem_singleton.2 ?_)
  exact .real spellsReal_fixed spellsReal_scaled

def repeatedObject : ObjectText where
  before := []
  space := []
  members := [.bare [partB] ['t', 'r', 'u', 'e'], .bare [escapedA] fixedArray,
    .bare [partB] ['n', 'u', 'l', 'l']]
  after := []
  before_spaces := isSpaces_nil
  space_spaces := isSpaces_nil
  after_spaces := isSpaces_nil
  isValue := by
    simp only [List.forall_mem_cons]
    exact ⟨.true, respelled_array.isValue.1, .null, by simp⟩

def sortedObject : ObjectText where
  before := ['\n']
  space := [' ']
  members := [.bare [partA] scaledArray, .bare [partB] ['n', 'u', 'l', 'l']]
  after := []
  before_spaces := isSpaces_newline
  space_spaces := isSpaces_blank
  after_spaces := isSpaces_nil
  isValue := by
    simp only [List.forall_mem_cons]
    exact ⟨respelled_array.isValue.2, .null, by simp⟩

example : repeatedObject.text = "\x7b\"b\":true,\"\\u0061\":[2.50],\"b\":null\x7d" ∧
    sortedObject.text = "\n\x7b \"a\":[ 25e-1],\"b\":null\x7d" := by
  decide

theorem lastValue?_repeatedObject (name : String) :
    lastValue? repeatedObject.members name =
      if name = "b" then some ['n', 'u', 'l', 'l']
      else if name = "a" then some fixedArray else none := by
  have ha : (Member.bare [escapedA] fixedArray).name? = some "a" := by decide
  have hb : ∀ l, (Member.bare [partB] l).name? = some "b" := fun _ => by rfl
  simp only [repeatedObject, lastValue?_cons, ha, hb, Option.some.injEq]
  by_cases hname : name = "b"
  · subst hname
    rfl
  · simp [hname, eq_comm, lastValue?, Member.bare, Spaced.bare]

theorem lastValue?_sortedObject (name : String) :
    lastValue? sortedObject.members name =
      if name = "b" then some ['n', 'u', 'l', 'l']
      else if name = "a" then some scaledArray else none := by
  have ha : (Member.bare [partA] scaledArray).name? = some "a" := by decide
  have hb : (Member.bare [partB] ['n', 'u', 'l', 'l']).name? = some "b" := by decide
  simp only [sortedObject, lastValue?_cons, ha, hb, Option.some.injEq]
  by_cases hname : name = "b"
  · subst hname
    rfl
  · simp [hname, eq_comm, lastValue?, Member.bare, Spaced.bare]

theorem respelled_object : Respelled repeatedObject.content sortedObject.content := by
  refine .object isSpaces_nil sortedObject.space_spaces repeatedObject.isValue
    sortedObject.isValue (fun name => ?_) fun name l l' hl hl' => ?_
  · rw [lastValue?_repeatedObject, lastValue?_sortedObject]
    split_ifs <;> rfl
  · rw [lastValue?_repeatedObject] at hl
    rw [lastValue?_sortedObject] at hl'
    split_ifs at hl hl'
    · cases hl
      cases hl'
      exact .same .null
    · cases hl
      cases hl'
      exact respelled_array

theorem parse_object_canonical_spellings :
    ∃ n, parse repeatedObject.text = .ok (.symbol n) ∧ parse n = .ok (.symbol n) ∧
      parse sortedObject.text = .ok (.symbol n) := by
  obtain ⟨j, hj⟩ := exists_eq_ok_of_isSome
    (show (Json.parse repeatedObject.text).toOption.isSome by decide +kernel)
  obtain ⟨v, hv⟩ := exists_eq_ok_of_isSome
    (show (parse sortedObject.text).toOption.isSome by decide +kernel)
  obtain ⟨members, rfl, hmembers⟩ := ObjectText.exists_members_of_parse hj
  have hnot : ∀ name, members ≠ [("symbol", .string name)] := by
    rintro name rfl
    obtain ⟨l, hl, -⟩ := hmembers.exists_of_mem "symbol" (.string name) List.mem_cons_self
    rw [lastValue?_repeatedObject] at hl
    cases hl
  obtain ⟨n, hn, -, hagain⟩ := parse_object_canonical.1 repeatedObject.text members hj hnot
  refine ⟨n, hn, hagain, ?_⟩
  rw [hv, ← parse_object_canonical.2.2 repeatedObject sortedObject (.symbol n) v respelled_object
    hn hv]

end Spellings

end Value

end GoCell
