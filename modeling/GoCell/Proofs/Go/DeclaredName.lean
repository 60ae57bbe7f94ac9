import GoCell.Go.EntryPoint
import GoCell.Proofs.Go.DeclarationReader
import GoCell.Proofs.Go.OneLine

/-!
Which name a line declares. It is the word after the keyword at the start of the line,
so what else stands on the line, a text in a literal say, has no part in it.
-/

namespace GoCell.Go

open Text (takeWhile_append_of_head dropWhile_append_of_head)

/-- The keywords that start a declaration. -/
def declarators : List String := ["const", "func", "type", "var"]

/-- The name that a line declares, if it is the first line of a declaration. -/
def declaredName? (line : List Char) : Option String :=
  let code := skipGap line
  if String.ofList (code.takeWhile isIdentChar) ∈ declarators then
    some (String.ofList ((skipGap (code.dropWhile isIdentChar)).takeWhile isIdentChar))
  else none

/-- The lines of a text that declare a name. -/
def linesDeclaring (name : String) (text : String) : List (List Char) :=
  (text.toList.splitOn '\n').filter (declaredName? · = some name)

/-- What follows the last line end declares nothing when it is empty. -/
theorem linesDeclaring_of_splitOn {name text : String} {lines : List (List Char)}
    (h : text.toList.splitOn '\n' = lines ++ [[]]) :
    linesDeclaring name text = lines.filter (declaredName? · = some name) := by
  have hend : [([] : List Char)].filter (declaredName? · = some name) = [] := rfl
  rw [linesDeclaring, h, List.filter_append, hend, List.append_nil]

/-- The names that the lines of a text declare, in order. -/
def declaredNames (text : String) : List String :=
  (text.toList.splitOn '\n').filterMap declaredName?

theorem declaredNames_of_splitOn {text : String} {lines : List (List Char)}
    (h : text.toList.splitOn '\n' = lines ++ [[]]) :
    declaredNames text = lines.filterMap declaredName? := by
  have hend : [([] : List Char)].filterMap declaredName? = [] := rfl
  rw [declaredNames, h, List.filterMap_append, hend, List.append_nil]

theorem not_isGap_of_isIdentChar {c : Char} (h : isIdentChar c) : isGap c = false := by
  by_contra hgap
  rcases isGap_iff.1 (by simpa using hgap) with rfl | rfl <;> exact absurd h (by decide)

/-- No gap stands before a word. -/
theorem skipGap_word_append {word rest : List Char} (h : ∀ c ∈ word, isIdentChar c) (hne : word ≠ []) :
    skipGap (word ++ rest) = word ++ rest := by
  cases word with
  | nil => exact absurd rfl hne
  | cons c word =>
      have hc := not_isGap_of_isIdentChar (h c List.mem_cons_self)
      exact List.dropWhile_cons_of_neg (by simp [hc])

theorem isIdentChar_of_mem_declarators {keyword : String} (h : keyword ∈ declarators) :
    keyword.toList ≠ [] ∧ ∀ c ∈ keyword.toList, isIdentChar c := by
  have hall : ∀ keyword ∈ declarators, keyword.toList ≠ [] ∧ keyword.toList.all isIdentChar := by
    decide
  rw [← List.all_eq_true]
  exact hall keyword h

/-- A keyword and a name declare the name, whatever follows the name. -/
theorem declaredName?_append {keyword : String} {name rest : List Char}
    (hkeyword : keyword ∈ declarators) (hname : ∀ c ∈ name, isIdentChar c) (hne : name ≠ [])
    (hrest : startsApart rest) :
    declaredName? (keyword.toList ++ ' ' :: (name ++ rest)) = some (String.ofList name) := by
  obtain ⟨hkeywordNe, hchars⟩ := isIdentChar_of_mem_declarators hkeyword
  have hspace := not_isIdentChar_of_startsApart (l := ' ' :: (name ++ rest)) rfl
  have hend := not_isIdentChar_of_startsApart hrest
  have hcode : skipGap (keyword.toList ++ ' ' :: (name ++ rest)) =
      keyword.toList ++ ' ' :: (name ++ rest) := skipGap_word_append hchars hkeywordNe
  have hgap : skipGap (' ' :: (name ++ rest)) = name ++ rest := skipGap_word_append hname hne
  unfold declaredName?
  simp only [hcode, takeWhile_append_of_head hchars hspace, dropWhile_append_of_head hchars hspace,
    hgap, takeWhile_append_of_head hname hend, String.ofList_toList, if_pos hkeyword]

/-- A line that does not start with a keyword for declarations declares nothing. -/
theorem declaredName?_of_not_mem {line : List Char}
    (h : String.ofList ((skipGap line).takeWhile isIdentChar) ∉ declarators) :
    declaredName? line = none := if_neg h

theorem toList_ne_nil_of_isIdentifier {name : String} (h : isIdentifier name) :
    name.toList ≠ [] := by
  intro hnil
  have hshape := isIdentShape_of_isIdentifier h
  rw [hnil] at hshape
  cases hshape

/-- A name with an underscore in it is no keyword. -/
theorem isIdentifier_append {name suffix : String} (h : isIdentifier name)
    (hchars : suffix.toList.all isIdentChar) (hmark : '_' ∈ suffix.toList) :
    isIdentifier (name ++ suffix) := by
  have hkeywords : ∀ keyword ∈ keywords, '_' ∉ keyword.toList := by decide
  have hshape : isIdentShape (name ++ suffix).toList := by
    have hname := isIdentShape_of_isIdentifier h
    rw [String.toList_append]
    cases hl : name.toList with
    | nil => exact absurd hl (toList_ne_nil_of_isIdentifier h)
    | cons c r =>
        rw [hl, isIdentShape, Bool.and_eq_true] at hname
        rw [List.cons_append, isIdentShape, List.all_append, hname.1, hname.2, hchars]
        rfl
  rw [isIdentifier, hshape, Bool.true_and, Bool.not_eq_true', List.contains_eq_mem,
    decide_eq_false_iff_not]
  intro hmem
  exact hkeywords _ hmem (by simp [hmark])

/-- A declaration of a binding declares its name. -/
theorem declaredName?_declareAs {ty : Ty} {b : Binding} {stmt : String}
    (h : declareAs ty b = .ok stmt) : declaredName? stmt.toList = some b.name := by
  obtain ⟨hname, text, -, rfl⟩ := declareAs_eq_ok_iff.1 h
  have hstmt : ("var " ++ b.name ++ " " ++ ty.text ++ " = " ++ text).toList =
      "var".toList ++ ' ' :: (b.name.toList ++ (' ' :: (ty.text ++ " = " ++ text).toList)) := by
    simp
  rw [hstmt, declaredName?_append (by decide) (fun c hc => isIdentChar_of_mem hname hc)
    (toList_ne_nil_of_isIdentifier hname) rfl, String.ofList_toList]

/-! ### Declarations without a type -/

/-- The name and the literal of a declaration that states no type. -/
def readUntyped? (l : List Char) : Option (String × Literal) :=
  match tokens? l with
  | some (.word keyword :: .word name :: r) =>
    if keyword = "var".toList ∧ String.ofList name ∉ keywords then
      (readInitializer? r).map (String.ofList name, ·)
    else none
  | _ => none

/-- A name, an equals sign and the text of a literal read back as the name and the
literal. -/
theorem readUntyped?_of_spells {name : String} {text : List Char} {lit : Literal}
    (hname : isIdentifier name) (h : Spells text lit.tokens) :
    readUntyped? ("var".toList ++ ' ' :: (name.toList ++ ' ' :: '=' :: ' ' :: text)) =
      some (name, lit) := by
  have hinit := Spells.gap (c := ' ') rfl (Spells.mark (c := '=') rfl (Spells.gap (c := ' ') rfl h))
  have hrest := Spells.gap (c := ' ') rfl
    ((spells_word (isIdentShape_of_isIdentifier hname)).append hinit rfl)
  have hvar : Spells "var".toList [.word "var".toList] := spells_word (by decide)
  have hall := (hvar.append hrest rfl).tokens?_eq
  rw [readUntyped?, hall]
  simp [readInitializer?_tokens, not_mem_keywords_of_isIdentifier hname]

/-! ### Literals of texts -/

/-- The text that an atom denotes, if it is the literal of one. -/
def Atom.text? : Atom → Option String
  | .text bytes => textOfBytes? bytes
  | _ => none

theorem Atom.text?_ofText (s : String) : (Atom.ofText s).text? = some s :=
  textOfBytes?_utf8 s

/-- The texts of a vector of texts. -/
def Literal.texts? : Literal → Option (List String)
  | .vector .string items => items.mapM Atom.text?
  | _ => none

/-- The rows of a table in which every cell is a text. -/
def Literal.rowsOfTexts? : Literal → Option (List (List String))
  | .table rows => rows.mapM (·.mapM Atom.text?)
  | _ => none

/-- What is written item by item reads back item by item. -/
theorem mapM_map_eq_some {α β : Type} {read : β → Option α} {write : α → β}
    (h : ∀ a, read (write a) = some a) (as : List α) : (as.map write).mapM read = some as := by
  induction as with
  | nil => rfl
  | cons a as ih =>
      rw [List.map_cons, List.mapM_cons, h, ih]
      rfl

theorem Literal.texts?_ofText (ss : List String) :
    (Literal.vector .string (ss.map Atom.ofText)).texts? = some ss :=
  mapM_map_eq_some Atom.text?_ofText ss

theorem Literal.rowsOfTexts?_ofText (rows : List (List String)) :
    (Literal.table (rows.map (·.map Atom.ofText))).rowsOfTexts? = some rows :=
  mapM_map_eq_some (mapM_map_eq_some Atom.text?_ofText) rows

end GoCell.Go
