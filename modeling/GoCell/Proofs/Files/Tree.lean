import GoCell.Files.Tree
import GoCell.Proofs.Files.Path
import GoCell.Proofs.Outcome
import Mathlib.Data.List.Infix

/-!
File trees as functions of places. A file that is written is the only place that changes,
and no path leads elsewhere after it; the paths that a walk finds are those of the entries
below its root, each of which leads to its own place.
-/

namespace GoCell

/-- Whether a node is a file. -/
def Node.isFile : Node → Bool
  | .file _ _ => true
  | .directory => false

namespace FileTree

variable {t t' : FileTree} {place : Place}

/-- Whether something is noted at a place or below it. -/
def Holds (t : FileTree) (place : Place) : Prop := ∃ e ∈ t.entries, place <+: e.1

/-- Whether the places of a tree are made of names and nothing lies below a file. -/
structure IsTree (t : FileTree) : Prop where
  names : ∀ e ∈ t.entries, ∀ name ∈ e.1, Path.IsName name
  leaves : ∀ e ∈ t.entries, ∀ e' ∈ t.entries, e.2.isFile = true → e.1 <+: e'.1 → e'.1 = e.1

/-! ### Nodes -/

theorem Holds.of_prefix {below : Place} (h : t.Holds below) (hplace : place <+: below) :
    t.Holds place := by
  obtain ⟨e, he, hbelow⟩ := h
  exact ⟨e, he, hplace.trans hbelow⟩

theorem mem_of_lookup {node : Node} (h : t.entries.lookup place = some node) :
    (place, node) ∈ t.entries := by
  obtain ⟨before, after, hsplit, -⟩ := List.lookup_eq_some_iff.1 h
  simp [hsplit]

theorem holds_of_lookup {node : Node} (h : t.entries.lookup place = some node) : t.Holds place :=
  ⟨_, mem_of_lookup h, List.prefix_rfl⟩

theorem node?_of_lookup {node : Node} (h : t.entries.lookup place = some node) :
    t.node? place = some node := by
  rw [node?, h]

open Classical in
theorem node?_of_lookup_none (h : t.entries.lookup place = none) :
    t.node? place = if place = [] ∨ t.Holds place then some .directory else none := by
  rw [node?, h]
  simp [Holds, List.any_eq_true]

theorem isSome_node?_iff : (t.node? place).isSome ↔ place = [] ∨ t.Holds place := by
  cases hlookup : t.entries.lookup place with
  | some node => simp [node?_of_lookup hlookup, holds_of_lookup hlookup]
  | none =>
      rw [node?_of_lookup_none hlookup]
      split
      · next h => simp [h]
      · next h => simp [h]

/-- What lies below a place makes it a directory. -/
theorem IsTree.node?_eq_directory (h : t.IsTree) {name : String}
    (hbelow : t.Holds (place ++ [name])) : t.node? place = some .directory := by
  have habove : place <+: place ++ [name] := List.prefix_append _ _
  cases hlookup : t.entries.lookup place with
  | none =>
      rw [node?_of_lookup_none hlookup, if_pos (.inr (hbelow.of_prefix habove))]
  | some node =>
      rw [node?_of_lookup hlookup]
      cases node with
      | directory => rfl
      | file content executable =>
          obtain ⟨e, he, hplace⟩ := hbelow
          have heq : e.1 = place :=
            h.leaves _ (mem_of_lookup hlookup) e he rfl (habove.trans hplace)
          have hlength := hplace.length_le
          rw [heq, List.length_append, List.length_singleton] at hlength
          omega

/-! ### Changing one place -/

theorem lookup_map_set (entries : List (Place × Node)) (place : Place) (node : Node)
    (other : Place) :
    (entries.map fun e => if e.1 == place then (place, node) else e).lookup other =
      if other = place then (entries.lookup place).map fun _ => node else entries.lookup other := by
  induction entries with
  | nil => simp
  | cons e entries ih =>
      obtain ⟨p, n⟩ := e
      rw [List.map_cons]
      by_cases hp : p = place
      · subst hp
        by_cases hother : other = p
        · simp [hother]
        · have hne : (other == p) = false := by simpa using hother
          simp only [beq_self_eq_true, if_true, List.lookup_cons, hne, ih, hother, if_false]
      · have hne : (p == place) = false := by simpa using hp
        have hne' : (place == p) = false := by simpa using Ne.symm hp
        simp only [hne, Bool.false_eq_true, if_false, List.lookup_cons, hne', ih]
        by_cases hother : other = p
        · subst hother
          simp [hp]
        · have hne : (other == p) = false := by simpa using hother
          simp only [hne]

theorem lookup_set (t : FileTree) (place : Place) (node : Node) (other : Place) :
    (t.set place node).entries.lookup other =
      if other = place then some node else t.entries.lookup other := by
  have hany : t.entries.any (·.1 == place) = (t.entries.lookup place).isSome := by
    rw [Bool.eq_iff_iff, List.any_eq_true, List.lookup_isSome_iff]
    simp only [beq_iff_eq, @eq_comm _ place]
  unfold set
  rw [hany]
  cases hlookup : t.entries.lookup place with
  | some node' => rw [Option.isSome_some, if_pos rfl, lookup_map_set, hlookup, Option.map_some]
  | none =>
      simp only [Option.isSome_none, Bool.false_eq_true, if_false, List.lookup_append]
      by_cases hother : other = place
      · subst hother
        simp [hlookup]
      · have hne : (other == place) = false := by simpa using hother
        simp [List.lookup_cons, hne, hother]

theorem holds_set {node : Node} {other : Place} :
    (t.set place node).Holds other ↔ t.Holds other ∨ other <+: place := by
  unfold set
  split
  · next hany =>
    obtain ⟨e, he, hplace⟩ := List.any_eq_true.1 hany
    have hplace : e.1 = place := by simpa using hplace
    have hsame : ∀ e : Place × Node, (if e.1 == place then (place, node) else e).1 = e.1 := by
      intro e
      split
      · next h => exact (by simpa using h : e.1 = place).symm
      · rfl
    constructor
    · rintro ⟨changed, hchanged, hother⟩
      obtain ⟨e', he', rfl⟩ := List.mem_map.1 hchanged
      rw [hsame] at hother
      exact .inl ⟨e', he', hother⟩
    · rintro (⟨e', he', hother⟩ | hother)
      · exact ⟨_, List.mem_map_of_mem he', (hsame e').symm ▸ hother⟩
      · exact ⟨_, List.mem_map_of_mem he, (hsame e).symm ▸ hplace.symm ▸ hother⟩
  · simp [Holds, or_and_right, exists_or]

@[simp]
theorem here_set (t : FileTree) (place : Place) (node : Node) :
    (t.set place node).here = t.here := by
  unfold set
  split
  · rfl
  · rfl

/-- Whether a place is that of a file, or one in a directory. -/
def CanHold (t : FileTree) (place : Place) : Prop :=
  (∃ content executable, t.node? place = some (.file content executable)) ∨
    t.node? place.dropLast = some .directory

/-- What is set is found where it is set, and everything else is where it was. -/
theorem node?_set (h : t.CanHold place) (node : Node) (other : Place) :
    (t.set place node).node? other = if other = place then some node else t.node? other := by
  classical
  have hlookup := lookup_set t place node other
  split
  · next heq =>
    rw [if_pos heq] at hlookup
    exact node?_of_lookup hlookup
  · next hne =>
    rw [if_neg hne] at hlookup
    cases hold : t.entries.lookup other with
    | some node' => rw [node?_of_lookup (hlookup.trans hold), node?_of_lookup hold]
    | none =>
        rw [node?_of_lookup_none (hlookup.trans hold), node?_of_lookup_none hold]
        -- a place above the one that is set was a directory already
        have hdirectory : other <+: place → other = [] ∨ t.Holds other := by
          intro habove
          rcases h with ⟨content, executable, hfile⟩ | hparent
          · have hplace := isSome_node?_iff.1 (Option.isSome_of_eq_some hfile)
            rcases hplace with rfl | hplace
            · exact absurd (List.prefix_nil.1 habove) hne
            · exact .inr (hplace.of_prefix habove)
          · have hup : other <+: place.dropLast := by
              rcases List.eq_nil_or_concat' place with rfl | ⟨names, name, rfl⟩
              · exact habove
              · rw [List.dropLast_concat]
                exact (List.prefix_concat_iff.1 habove).resolve_left hne
            rcases isSome_node?_iff.1 (Option.isSome_of_eq_some hparent) with hnil | hplace
            · rw [hnil] at hup
              exact .inl (List.prefix_nil.1 hup)
            · exact .inr (hplace.of_prefix hup)
        have hiff : (other = [] ∨ (t.set place node).Holds other) ↔ other = [] ∨ t.Holds other := by
          rw [holds_set]
          constructor
          · rintro (hnil | hheld | habove)
            · exact .inl hnil
            · exact .inr hheld
            · exact hdirectory habove
          · rintro (hnil | hheld)
            · exact .inl hnil
            · exact .inr (.inl hheld)
        simp only [hiff]

/-! ### Paths -/

theorem enter_eq_ok_iff {u : Unit} : t.enter place = .ok u ↔ t.node? place = some .directory := by
  unfold enter
  split
  · next h => simp [h]
  · next h => simp [h]
  · next h => simp [h]

theorem follow_append (t : FileTree) (place : Place) (names more : List String) :
    t.follow place (names ++ more) = t.follow place names >>= (t.follow · more) := by
  induction names generalizing place with
  | nil => rfl
  | cons name names ih =>
      rw [List.cons_append, follow, follow]
      cases t.enter place with
      | error e => rfl
      | ok u =>
          simp only [ok_bind]
          split
          · exact ih place
          split
          · exact ih place.dropLast
          · exact ih (place ++ [name])

theorem locate_join {root name : String} (hroot : root ≠ "") (h : Path.IsName name)
    {below : Place} :
    t.locate (Path.join root name) = .ok below ↔
      ∃ place, t.locate root = .ok place ∧ t.node? place = some .directory ∧
        below = place ++ [name] := by
  have hlast : ∀ place, t.follow place [name] = .ok below ↔
      t.node? place = some .directory ∧ below = place ++ [name] := by
    intro place
    rw [follow, if_neg h.2.2.1, if_neg h.2.2.2, bind_eq_ok_iff]
    simp only [follow, enter_eq_ok_iff, Except.ok.injEq, exists_const, @eq_comm _ below]
  rw [locate, if_neg (Path.join_ne_empty h root), Path.isAbsolute_join hroot, Path.names_join h,
    follow_append, bind_eq_ok_iff, locate, if_neg hroot]
  simp only [hlast]

/-- A path leads where it did as long as the directories on its way are there. -/
theorem locate_of_directories (hhere : t'.here = t.here)
    (hdirectories : ∀ place, t.node? place = some .directory → t'.node? place = some .directory)
    {path : String} (h : t.locate path = .ok place) : t'.locate path = .ok place := by
  have hfollow : ∀ names start, t.follow start names = .ok place →
      t'.follow start names = .ok place := by
    intro names
    induction names with
    | nil => exact fun start h => h
    | cons name names ih =>
        intro start h
        rw [follow, bind_eq_ok_iff] at h
        obtain ⟨u, henter, h⟩ := h
        have henter' : t'.enter start = .ok u :=
          enter_eq_ok_iff.2 (hdirectories start (enter_eq_ok_iff.1 henter))
        rw [follow, henter', ok_bind]
        split
        · next hdot =>
          rw [if_pos hdot] at h
          exact ih start h
        · next hdot =>
          rw [if_neg hdot] at h
          split
          · next hdots =>
            rw [if_pos hdots] at h
            exact ih start.dropLast h
          · next hdots =>
            rw [if_neg hdots] at h
            exact ih (start ++ [name]) h
  unfold locate at h ⊢
  split
  · next hempty =>
    rw [if_pos hempty] at h
    cases h
  · next hempty =>
    rw [if_neg hempty] at h
    rw [hhere]
    exact hfollow _ _ h

theorem isFile_iff {path : String} :
    t.isFile path = true ↔ ∃ place content executable, t.locate path = .ok place ∧
      t.node? place = some (.file content executable) ∧ Path.namesDirectory path = false := by
  unfold isFile find
  cases hlocate : t.locate path with
  | error e => simp [bind, Except.bind]
  | ok place =>
      cases hnode : t.node? place with
      | none => simp [bind, Except.bind, hnode]
      | some node =>
          cases node with
          | directory => simp [bind, Except.bind, hnode]
          | file content executable =>
              cases hnames : Path.namesDirectory path with
              | false => cases executable <;> simp [bind, Except.bind, hnode]
              | true => simp [bind, Except.bind, hnode]

theorem isDirectory_iff {path : String} :
    t.isDirectory path = true ↔
      ∃ place, t.locate path = .ok place ∧ t.node? place = some .directory := by
  unfold isDirectory find
  cases hlocate : t.locate path with
  | error e => simp [bind, Except.bind]
  | ok place =>
      cases hnode : t.node? place with
      | none => simp [bind, Except.bind, hnode]
      | some node =>
          cases node with
          | directory => simp [bind, Except.bind, hnode]
          | file content executable =>
              cases hnames : Path.namesDirectory path <;> simp [bind, Except.bind, hnode]

theorem isFile_eq_false_of_isDirectory {path : String} (h : t.isDirectory path = true) :
    t.isFile path = false := by
  obtain ⟨place, hlocate, hnode⟩ := isDirectory_iff.1 h
  rw [isFile, find, hlocate, ok_bind, hnode]

theorem find_file {path content : String} {executable : Bool} (hlocate : t.locate path = .ok place)
    (hnode : t.node? place = some (.file content executable))
    (hnames : Path.namesDirectory path = false) :
    t.find path = .ok (place, .file content executable) := by
  rw [find, hlocate, ok_bind, hnode]
  simp [hnames]

theorem read_file {path content : String} {executable : Bool} (hlocate : t.locate path = .ok place)
    (hnode : t.node? place = some (.file content executable))
    (hnames : Path.namesDirectory path = false) : t.read path = .ok content := by
  rw [read, find_file hlocate hnode hnames]
  rfl

/-- Whether the file at a place, if there is one, can be run. -/
def isExecutable (t : FileTree) (place : Place) : Bool :=
  match t.node? place with
  | some (.file _ executable) => executable
  | _ => false

theorem write_eq {path : String} (content : String) (hlocate : t.locate path = .ok place)
    (hnames : Path.namesDirectory path = false) (hfree : t.node? place ≠ some .directory)
    (hparent : t.node? place.dropLast = some .directory) :
    t.write path content = .ok (t.set place (.file content (t.isExecutable place))) := by
  have henter : t.enter place.dropLast = .ok () := enter_eq_ok_iff.2 hparent
  rw [write, hlocate, ok_bind, isExecutable]
  cases hnode : t.node? place with
  | none => simp [henter, ok_bind, hnames]
  | some node =>
      cases node with
      | directory => exact absurd hnode hfree
      | file old executable => simp [hnames]

/-! ### Entries -/

theorem mem_children_iff {name : String} :
    name ∈ t.children place ↔ t.Holds (place ++ [name]) := by
  simp only [children, List.mem_eraseDups, List.mem_mergeSort, List.mem_filterMap, Holds]
  constructor
  · rintro ⟨⟨p, node⟩, he, hname⟩
    dsimp only at hname
    split at hname
    · next habove =>
      obtain ⟨rest, rfl⟩ := List.isPrefixOf_iff_prefix.1 habove
      rw [List.drop_left] at hname
      obtain ⟨rest, rfl⟩ := List.head?_eq_some_iff.1 hname
      exact ⟨_, he, rest, by simp⟩
    · cases hname
  · rintro ⟨⟨p, node⟩, he, rest, hp⟩
    refine ⟨(p, node), he, ?_⟩
    dsimp only at hp ⊢
    subst hp
    rw [List.append_assoc, List.singleton_append, if_pos (by simp), List.drop_left]
    rfl

/-- The path of what is found below a directory under some names. -/
def entryPath (root : String) (names : List String) : String := names.foldl Path.join root

theorem mem_walk_iff {levels : Nat} {root path : String} :
    path ∈ t.walk levels root place ↔ ∃ names, names.length ≤ levels ∧
      path = entryPath root names ∧ (names = [] ∨ t.Holds (place ++ names)) := by
  induction levels generalizing root place with
  | zero =>
      rw [walk, List.mem_singleton]
      constructor
      · rintro rfl
        exact ⟨[], Nat.le_refl 0, rfl, .inl rfl⟩
      · rintro ⟨names, hlength, rfl, -⟩
        rw [List.length_eq_zero_iff.1 (Nat.le_zero.1 hlength)]
        rfl
  | succ levels ih =>
      simp only [walk, List.mem_cons, List.mem_flatMap, mem_children_iff, ih]
      constructor
      · rintro (rfl | ⟨name, hname, names, hlength, rfl, hnames⟩)
        · exact ⟨[], Nat.zero_le _, rfl, .inl rfl⟩
        · refine ⟨name :: names, Nat.succ_le_succ hlength, rfl, .inr ?_⟩
          rcases hnames with rfl | hnames
          · exact hname
          · rwa [List.append_assoc] at hnames
      · rintro ⟨names, hlength, rfl, hnames⟩
        cases names with
        | nil => exact .inl rfl
        | cons name names =>
            have hheld : t.Holds (place ++ name :: names) := hnames.resolve_left nofun
            refine .inr ⟨name, hheld.of_prefix ?_, names, Nat.le_of_succ_le_succ hlength, rfl, ?_⟩
            · exact ⟨names, by simp⟩
            · right
              rwa [List.append_assoc]

/-- Whether a path is that of a directory or of an entry at any depth below it. -/
def IsEntry (t : FileTree) (root path : String) : Prop :=
  ∃ place names, t.locate root = .ok place ∧ path = entryPath root names ∧
    (t.node? (place ++ names)).isSome = true

/-- The entries lie on the ways from the directory to the places that are noted. -/
theorem IsEntry.eq_or_exists {root path : String} (hroot : t.locate root = .ok place)
    (h : t.IsEntry root path) : path = root ∨ ∃ e ∈ t.entries, place <+: e.1 ∧
      ∃ names ∈ (e.1.drop place.length).inits, path = entryPath root names := by
  obtain ⟨place', names, hroot', rfl, hsome⟩ := h
  obtain rfl : place = place' := Except.ok.inj (hroot.symm.trans hroot')
  rcases isSome_node?_iff.1 hsome with hnil | ⟨e, he, rest, hrest⟩
  · rw [(List.append_eq_nil_iff.1 hnil).2]
    exact .inl rfl
  · refine .inr ⟨e, he, ?_, names, ?_, rfl⟩
    · exact (List.prefix_append _ _).trans ⟨rest, hrest⟩
    · rw [← hrest, List.append_assoc, List.drop_left, List.mem_inits]
      exact List.prefix_append _ _

theorem le_foldl_max (ns : List Nat) (start : Nat) :
    start ≤ ns.foldl max start ∧ ∀ n ∈ ns, n ≤ ns.foldl max start := by
  induction ns generalizing start with
  | nil => simp
  | cons n ns ih =>
      obtain ⟨hstart, hns⟩ := ih (max start n)
      rw [List.foldl_cons, List.forall_mem_cons]
      exact ⟨by omega, by omega, hns⟩

/-- The walk finds the entries and nothing else. -/
theorem mem_paths_iff {root path : String} (hroot : t.isDirectory root = true) :
    path ∈ t.paths root ↔ t.IsEntry root path := by
  obtain ⟨place, hlocate, hnode⟩ := isDirectory_iff.1 hroot
  have hfind : t.find root = .ok (place, .directory) := by
    rw [find, hlocate, ok_bind, hnode]
  rw [paths, hfind]
  dsimp only
  rw [mem_walk_iff]
  constructor
  · rintro ⟨names, -, rfl, hnames⟩
    refine ⟨place, names, hlocate, rfl, ?_⟩
    rcases hnames with rfl | hnames
    · rw [List.append_nil, hnode]
      rfl
    · exact isSome_node?_iff.2 (.inr hnames)
  · rintro ⟨place', names, hlocate', rfl, hnames⟩
    rw [hlocate] at hlocate'
    cases hlocate'
    rcases isSome_node?_iff.1 hnames with hnil | hheld
    · exact ⟨names, by simp [(List.append_eq_nil_iff.1 hnil).2], rfl,
        .inl (List.append_eq_nil_iff.1 hnil).2⟩
    · refine ⟨names, ?_, rfl, .inr hheld⟩
      obtain ⟨e, he, habove⟩ := hheld
      have hlength := habove.length_le
      rw [List.length_append] at hlength
      have hmax := (le_foldl_max (t.entries.map (·.1.length)) 0).2 _ (List.mem_map_of_mem he)
      omega

theorem entryPath_ne_empty {root : String} (hroot : root ≠ "") {names : List String}
    (h : ∀ name ∈ names, Path.IsName name) : entryPath root names ≠ "" := by
  induction names generalizing root with
  | nil => exact hroot
  | cons name names ih =>
      obtain ⟨hname, hnames⟩ := List.forall_mem_cons.1 h
      exact ih (Path.join_ne_empty hname root) hnames

theorem IsTree.isName (h : t.IsTree) {names : List String} (hnames : t.Holds (place ++ names)) :
    ∀ name ∈ names, Path.IsName name := by
  obtain ⟨e, he, habove⟩ := hnames
  exact fun name hname => h.names e he name (habove.subset (List.mem_append_right _ hname))

theorem entryPath_concat (root : String) (names : List String) (name : String) :
    entryPath root (names ++ [name]) = Path.join (entryPath root names) name := by
  rw [entryPath, List.foldl_append]
  rfl

section Below

variable {root : String} (hroot : t.locate root = .ok place)
include hroot

/-- The path of an entry leads to the place of the entry. -/
theorem IsTree.locate_entryPath (h : t.IsTree) {names : List String}
    (hnames : names = [] ∨ t.Holds (place ++ names)) :
    t.locate (entryPath root names) = .ok (place ++ names) := by
  have hne : root ≠ "" := by
    rintro rfl
    cases hroot
  induction names using List.reverseRecOn with
  | nil => simpa [entryPath] using hroot
  | append_singleton names name ih =>
      have hheld : t.Holds (place ++ (names ++ [name])) := hnames.resolve_left (by simp)
      have hisName := h.isName hheld
      rw [← List.append_assoc] at hheld
      have hplace := ih (.inr (hheld.of_prefix (List.prefix_append _ _)))
      rw [entryPath_concat]
      refine (locate_join (entryPath_ne_empty hne fun n hn => hisName n (by simp [hn]))
        (hisName name (by simp))).2 ⟨_, hplace, h.node?_eq_directory hheld, by simp⟩

/-- What lies beside an entry is in the same directory. -/
theorem IsTree.locate_beside (h : t.IsTree) {names : List String} {name other : String}
    (hheld : t.Holds (place ++ names ++ [name])) (hother : Path.IsName other) :
    t.locate (Path.join (entryPath root names) other) = .ok (place ++ names ++ [other]) := by
  have hplace := h.locate_entryPath hroot (.inr (hheld.of_prefix (List.prefix_append _ _)))
  refine (locate_join ?_ hother).2 ⟨_, hplace, h.node?_eq_directory hheld, rfl⟩
  intro hempty
  rw [hempty] at hplace
  cases hplace

end Below

end FileTree

end GoCell
