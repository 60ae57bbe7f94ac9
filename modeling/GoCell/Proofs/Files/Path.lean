import GoCell.Files.Path
import Mathlib.Data.List.Basic

/-!
Paths of entries. The path of an entry of a directory ends in the name of the entry, so
its last name and its extension are those of the name, and another extension in place of
its own gives the path of another entry of the same directory.
-/

namespace GoCell.Path

/-- Whether a text can be the name of an entry of a directory. -/
def IsName (name : String) : Prop :=
  name ≠ "" ∧ '/' ∉ name.toList ∧ name ≠ "." ∧ name ≠ ".."

instance (name : String) : Decidable (IsName name) :=
  inferInstanceAs (Decidable (_ ∧ _ ∧ _ ∧ _))

/-! ### The path of an entry -/

/-- A directory as it stands before the name of an entry, with a slash at its end. -/
def base (directory : String) : String :=
  if directory.toList.getLast? == some '/' then directory else directory ++ "/"

theorem join_eq (directory name : String) : join directory name = base directory ++ name := by
  unfold join base
  split
  · rfl
  · rfl

theorem join_ne_empty {name : String} (h : IsName name) (directory : String) :
    join directory name ≠ "" := by
  rw [join_eq, ne_eq, String.append_eq_empty_iff]
  exact fun hempty => h.1 hempty.2

/-- The slash at the end adds no name. -/
theorem exists_base_eq (directory : String) :
    ∃ before, (base directory).toList = before ++ ['/'] ∧
      ((before.splitOn '/').map String.ofList).filter (· ≠ "") = names directory := by
  unfold base
  split
  · next hslash =>
    obtain ⟨before, hbefore⟩ := List.getLast?_eq_some_iff.1 (by simpa using hslash)
    refine ⟨before, hbefore, ?_⟩
    rw [names, hbefore, List.splitOn_append_cons_self, List.splitOn_nil, List.map_append,
      List.filter_append]
    simp
  · exact ⟨directory.toList, by simp, rfl⟩

theorem splitOn_join (directory : String) {name : String} (h : '/' ∉ name.toList) :
    ∃ before, (join directory name).toList.splitOn '/' = before ++ [name.toList] ∧
      (before.map String.ofList).filter (· ≠ "") = names directory := by
  obtain ⟨before, hbase, hnames⟩ := exists_base_eq directory
  refine ⟨before.splitOn '/', ?_, hnames⟩
  rw [join_eq, String.toList_append, hbase, List.append_assoc, List.singleton_append,
    List.splitOn_append_cons_self, List.splitOn_eq_singleton h]

theorem isAbsolute_join {directory : String} (h : directory ≠ "") (name : String) :
    isAbsolute (join directory name) = isAbsolute directory := by
  have hne : directory.toList ≠ [] := by simpa using h
  have hbase : (base directory).toList.head? = directory.toList.head? := by
    unfold base
    split
    · rfl
    · rw [String.toList_append, List.head?_append_of_ne_nil _ hne]
  have hbase_ne : (base directory).toList ≠ [] := by
    obtain ⟨before, hbefore, -⟩ := exists_base_eq directory
    simp [hbefore]
  rw [isAbsolute, isAbsolute, join_eq, String.toList_append,
    List.head?_append_of_ne_nil _ hbase_ne, hbase]

section Entry

variable {directory name : String} (h : IsName name)
include h

theorem names_join : names (join directory name) = names directory ++ [name] := by
  obtain ⟨before, hsplit, hnames⟩ := splitOn_join directory h.2.1
  rw [names, hsplit, List.map_append, List.filter_append, hnames]
  simp [h.1]

theorem namesDirectory_join : namesDirectory (join directory name) = false := by
  obtain ⟨before, hsplit, -⟩ := splitOn_join directory h.2.1
  have hne : ∀ s : String, name ≠ s → name.toList ≠ s.toList := fun s hs heq =>
    hs (String.toList_inj.1 heq)
  have hempty := hne "" h.1
  have hdot := hne "." h.2.2.1
  have hdots := hne ".." h.2.2.2
  rw [namesDirectory, hsplit, List.getLast?_concat]
  simp_all

theorem name?_join : name? (join directory name) = some name := by
  rw [name?, names_join h, List.filter_append, List.filter_singleton]
  simp only [h.2.2.1, ne_eq, not_false_eq_true, decide_true, cond_true, List.getLast?_concat]
  split
  · next heq => exact absurd (Option.some.inj heq) h.2.2.2
  · rfl

end Entry

/-! ### Extensions -/

theorem exists_last_of_mem {c : Char} {l : List Char} (h : c ∈ l) :
    ∃ before after, l = before ++ c :: after ∧ c ∉ after := by
  obtain ⟨xs, ys, hsplit, hxs⟩ := List.eq_append_cons_of_mem (List.mem_reverse.2 h)
  refine ⟨ys.reverse, xs.reverse, ?_, by simpa using hxs⟩
  rw [← List.reverse_reverse l, hsplit, List.reverse_append, List.reverse_cons, List.append_assoc,
    List.singleton_append]

/-- An extension follows the last point of a name, which is not its first character. -/
theorem extension?_eq_some_iff {path name extension : String} (h : name? path = some name) :
    extension? path = some extension ↔ ∃ stem, stem ≠ [] ∧ '.' ∉ extension.toList ∧
      name.toList = stem ++ '.' :: extension.toList := by
  have hsplit : ∀ before after : List Char, name.toList = before ++ '.' :: after → '.' ∉ after →
      extension? path = if before = [] then none else some (String.ofList after) := by
    intro before after hname hafter
    have hlength : name.length = before.length + after.length + 1 := by
      rw [← String.length_toList, hname, List.length_append, List.length_cons]
      omega
    rw [extension?, h]
    simp only [hname, List.splitOn_append_cons_self, List.splitOn_eq_singleton hafter,
      List.getLast?_concat, List.length_append, List.length_singleton, hlength]
    cases before with
    | nil => simp
    | cons c r => simp
  constructor
  · intro hextension
    by_cases hpoint : '.' ∈ name.toList
    · obtain ⟨before, after, hname, hafter⟩ := exists_last_of_mem hpoint
      rw [hsplit before after hname hafter] at hextension
      split at hextension
      · cases hextension
      · next hbefore =>
        cases hextension
        exact ⟨before, hbefore, by simpa using hafter, by simpa using hname⟩
    · rw [extension?, h] at hextension
      simp [List.splitOn_eq_singleton hpoint] at hextension
  · rintro ⟨stem, hstem, hnot, hname⟩
    rw [hsplit stem _ hname hnot, if_neg hstem, String.ofList_toList]

/-- Another extension gives another entry of the same directory. -/
theorem withExtension_join {directory name old : String} (h : IsName name) {stem : List Char}
    (hstem : stem ≠ []) (hold : '.' ∉ old.toList)
    (hname : name.toList = stem ++ '.' :: old.toList) (new : String) :
    withExtension (join directory name) new =
      join directory (String.ofList (stem ++ '.' :: new.toList)) := by
  have hextension : extension? (join directory name) = some old :=
    (extension?_eq_some_iff (name?_join h)).2 ⟨stem, hstem, hold, hname⟩
  have htext : (join directory name).toList =
      ((base directory).toList ++ stem ++ ['.']) ++ old.toList := by
    rw [join_eq, String.toList_append, hname]
    simp
  have hlength : (join directory name).length - old.length =
      ((base directory).toList ++ stem ++ ['.']).length := by
    rw [← String.length_toList, htext, List.length_append, String.length_toList,
      Nat.add_sub_cancel]
  rw [withExtension, hextension]
  dsimp only
  rw [htext, hlength, List.take_left, join_eq, ← String.toList_inj]
  simp

theorem isName_of_point {stem : List Char} {extension : String} (hstem : stem ≠ [])
    (hslash : '/' ∉ stem) (hslash' : '/' ∉ extension.toList) (hne : extension ≠ "") :
    IsName (String.ofList (stem ++ '.' :: extension.toList)) := by
  have hne : extension.toList ≠ [] := by simpa using hne
  have hlength : 3 ≤ (String.ofList (stem ++ '.' :: extension.toList)).length := by
    have := List.length_pos_iff.2 hstem
    have := List.length_pos_iff.2 hne
    simp only [String.length_ofList, List.length_append, List.length_cons]
    omega
  refine ⟨?_, by simp [hslash, hslash'], ?_, ?_⟩
  all_goals
    intro heq
    rw [heq] at hlength
    exact absurd hlength (by decide)

end GoCell.Path
