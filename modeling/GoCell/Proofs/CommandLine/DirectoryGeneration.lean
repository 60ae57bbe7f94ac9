import GoCell.Proofs.CommandLine.FileGeneration

/-!
Generating the programs of the cells below a directory. The program of a cell `x.json` has
a place `x.go` of its own, which is not that of a cell, so what is left does not depend on
the order in which the cells are found.
-/

namespace GoCell.CommandLine

variable {settings : Settings} {files : FileTree} {root path : String} {place : Place}

/-- Whether a path is that of a cell file at or below a directory. -/
def IsCell (files : FileTree) (root path : String) : Prop :=
  files.IsEntry root path ∧ isCellFile path = true

/-- Whether the cells at and below a directory are files and no program of theirs has the path of
a directory. -/
structure IsCellDirectory (files : FileTree) (root : String) : Prop where
  tree : files.IsTree
  directory : files.isDirectory root = true
  file : ∀ path, IsCell files root path → files.isFile path = true
  free : ∀ path, IsCell files root path → files.isDirectory (programPath path) = false

/-! ### Places of cells and of programs -/

/-- The name with a stem and an extension. -/
def nameOf (stem : List Char) (extension : String) : String :=
  String.ofList (stem ++ '.' :: extension.toList)

theorem nameOf_inj {stem stem' : List Char} {extension : String} :
    nameOf stem extension = nameOf stem' extension ↔ stem = stem' := by
  rw [nameOf, nameOf, String.ofList_inj, List.append_left_inj]

theorem nameOf_go_ne_json (stem stem' : List Char) : nameOf stem "go" ≠ nameOf stem' "json" := by
  intro h
  have hlast := congrArg (fun name : String => name.toList.getLast?) h
  simp [nameOf] at hlast

section Entry

variable {directory name : String} (hname : Path.IsName name)
include hname

theorem extension?_join_eq_some_iff {extension : String} (hpoint : '.' ∉ extension.toList) :
    Path.extension? (Path.join directory name) = some extension ↔
      ∃ stem, stem ≠ [] ∧ name = nameOf stem extension := by
  rw [Path.extension?_eq_some_iff (Path.name?_join hname)]
  simp only [hpoint, not_false_eq_true, true_and, nameOf, ← String.toList_inj, String.toList_ofList]

theorem isCellFile_join_iff :
    isCellFile (Path.join directory name) = true ↔
      ∃ stem, stem ≠ [] ∧ name = nameOf stem "json" := by
  rw [isCellFile, beq_iff_eq, extension?_join_eq_some_iff hname (by decide)]

end Entry

section Stem

variable {stem : List Char} (hstem : stem ≠ []) (hname : Path.IsName (nameOf stem "json"))
include hstem hname

theorem isName_nameOf_go : Path.IsName (nameOf stem "go") :=
  Path.isName_of_point hstem (by simpa [nameOf] using hname.2.1) (by decide) (by decide)

theorem programPath_join_nameOf (directory : String) :
    programPath (Path.join directory (nameOf stem "json")) =
      Path.join directory (nameOf stem "go") := by
  have hjson : '.' ∉ "json".toList := by decide
  exact Path.withExtension_join hname hstem hjson (String.toList_ofList) "go"

/-- A program is not found as a cell. -/
theorem not_isCellFile_join_nameOf_go (directory : String) :
    isCellFile (Path.join directory (nameOf stem "go")) = false := by
  rw [← Bool.not_eq_true, isCellFile_join_iff (isName_nameOf_go hstem hname)]
  rintro ⟨stem', -, heq⟩
  exact nameOf_go_ne_json stem stem' heq

end Stem

/-- Whether a path is that of a cell with a stem, below a directory under some names. -/
structure IsCellAt (files : FileTree) (root : String) (place : Place) (names : List String)
    (stem : List Char) (path : String) : Prop where
  path_eq : path = FileTree.entryPath root (names ++ [nameOf stem "json"])
  source : IsSource files path (place ++ names ++ [nameOf stem "json"])
    (place ++ names ++ [nameOf stem "go"])
  unread : isCellFile (programPath path) = false

theorem IsCell.exists_isCellAt (hdir : IsCellDirectory files root)
    (hroot : files.locate root = .ok place) (h : IsCell files root path) :
    ∃ names stem, IsCellAt files root place names stem path := by
  have hfile := hdir.file path h
  have hfree := hdir.free path h
  obtain ⟨⟨place', names, hroot', hpath, hsome⟩, hcell⟩ := h
  obtain rfl : place = place' := Except.ok.inj (hroot.symm.trans hroot')
  rcases List.eq_nil_or_concat' names with rfl | ⟨names, name, rfl⟩
  · -- the directory itself is not a file
    obtain rfl : path = root := hpath
    rw [FileTree.isFile_eq_false_of_isDirectory hdir.directory] at hfile
    cases hfile
  have hheld : files.Holds (place ++ (names ++ [name])) :=
    (FileTree.isSome_node?_iff.1 hsome).resolve_left (by simp)
  have hname : Path.IsName name := hdir.tree.isName hheld name (by simp)
  rw [← List.append_assoc] at hheld
  rw [FileTree.entryPath_concat] at hpath
  obtain ⟨stem, hstem, rfl⟩ := (isCellFile_join_iff hname).1 (hpath ▸ hcell)
  have hgo := isName_nameOf_go hstem hname
  have hprogram := programPath_join_nameOf hstem hname (FileTree.entryPath root names)
  rw [← hpath] at hprogram
  have hlocate := hdir.tree.locate_beside hroot hheld hname
  have hlocate_go := hdir.tree.locate_beside hroot hheld hgo
  rw [← hpath] at hlocate
  rw [← hprogram] at hlocate_go
  obtain ⟨place', text, executable, hlocate', hnode, hnotDirectory⟩ := FileTree.isFile_iff.1 hfile
  obtain rfl := Except.ok.inj (hlocate.symm.trans hlocate')
  refine ⟨names, stem, hpath.trans (FileTree.entryPath_concat _ _ _).symm, ?_, ?_⟩
  · exact {
      locate := hlocate
      file := ⟨text, executable, hnode⟩
      name := hnotDirectory
      locate_target := hlocate_go
      name_target := by rw [hprogram, Path.namesDirectory_join hgo]
      free := fun hnode => by
        rw [FileTree.isDirectory_iff.2 ⟨_, hlocate_go, hnode⟩] at hfree
        cases hfree
      parent := by rw [List.dropLast_concat, hdir.tree.node?_eq_directory hheld] }
  · rw [hprogram, not_isCellFile_join_nameOf_go hstem hname]

/-- No program has the place of another, or of a cell. -/
theorem IsCellDirectory.apart (h : IsCellDirectory files root) :
    Apart files (IsCell files root) := by
  obtain ⟨place, hroot, -⟩ := FileTree.isDirectory_iff.1 h.directory
  refine ⟨?_, ?_, ?_⟩
  · intro path hpath
    obtain ⟨names, stem, hcell⟩ := hpath.exists_isCellAt h hroot
    exact ⟨_, _, hcell.source⟩
  · intro path path' hpath hpath' hlocate
    obtain ⟨names, stem, hcell⟩ := hpath.exists_isCellAt h hroot
    obtain ⟨names', stem', hcell'⟩ := hpath'.exists_isCellAt h hroot
    rw [hcell.source.locate_target, hcell'.source.locate_target, Except.ok.injEq] at hlocate
    obtain ⟨hnames, hstem⟩ := List.append_inj' hlocate rfl
    rw [hcell.path_eq, hcell'.path_eq, List.append_cancel_left hnames,
      nameOf_inj.1 (List.singleton_inj.1 hstem)]
  · intro path path' hpath hpath' hlocate
    obtain ⟨names, stem, hcell⟩ := hpath.exists_isCellAt h hroot
    obtain ⟨names', stem', hcell'⟩ := hpath'.exists_isCellAt h hroot
    rw [hcell.source.locate_target, hcell'.source.locate, Except.ok.injEq] at hlocate
    obtain ⟨-, hname⟩ := List.append_inj' hlocate rfl
    exact nameOf_go_ne_json stem stem' (List.singleton_inj.1 hname)

/-! ### Walks -/

/-- Whether a walk finds the cells at and below a directory, in any order and among anything
else. -/
def Finds (files : FileTree) (root : String) (found : List String) : Prop :=
  ∀ path, isCellFile path = true → (path ∈ found ↔ files.IsEntry root path)

theorem finds_paths (h : files.isDirectory root = true) : Finds files root (files.paths root) :=
  fun _ _ => FileTree.mem_paths_iff h

theorem generatePath_of_isDirectory (h : files.isDirectory root = true) :
    generatePath settings root files = generateFound settings root (files.paths root) files := by
  rw [generatePath, FileTree.isFile_eq_false_of_isDirectory h, h]
  rfl

theorem Finds.mem_filter_iff {found : List String} (h : Finds files root found) :
    path ∈ found.filter isCellFile ↔ IsCell files root path := by
  rw [List.mem_filter]
  constructor
  · rintro ⟨hfound, hcell⟩
    exact ⟨(h path hcell).1 hfound, hcell⟩
  · rintro ⟨hentry, hcell⟩
    exact ⟨(h path hcell).2 hentry, hcell⟩

theorem generateFound_of_ne_nil (settings : Settings) {found : List String}
    (h : found.filter isCellFile ≠ []) :
    (generateFound settings root found files).exitCode =
        (generateEach settings (found.filter isCellFile) { files }).exitCode ∧
      (generateFound settings root found files).files =
        (generateEach settings (found.filter isCellFile) { files }).files := by
  unfold generateFound
  split
  · next hnil => exact absurd hnil h
  · dsimp only
    split
    · exact ⟨rfl, rfl⟩
    · exact ⟨rfl, rfl⟩

/-! ### What is left -/

/-- Which programs a walk leaves: those of all cells where it succeeds, otherwise those of the
cells found before one that has no code. -/
theorem generateFound_written (settings : Settings) (hdir : IsCellDirectory files root)
    {found : List String} (hfound : Finds files root found) :
    ∃ paths, (∀ path ∈ paths, IsCell files root path) ∧
      Written settings files paths (generateFound settings root found files).files ∧
      ((generateFound settings root found files).exitCode = 0 ∧
          (∃ path, IsCell files root path) ∧ (∀ path, IsCell files root path → path ∈ paths) ∨
        (generateFound settings root found files).exitCode = 1 ∧
          ((∃ path, IsCell files root path) →
            ∃ path, IsCell files root path ∧ codeAt? settings files path = none)) := by
  have hcells : ∀ path ∈ found.filter isCellFile, IsCell files root path :=
    fun path => hfound.mem_filter_iff.1
  by_cases hnil : found.filter isCellFile = []
  · have hnone : ∀ path, ¬IsCell files root path := by
      intro path hpath
      have hmem := hfound.mem_filter_iff.2 hpath
      rw [hnil] at hmem
      cases hmem
    rw [generateFound, hnil]
    refine ⟨[], by simp, written_nil settings files, .inr ⟨rfl, ?_⟩⟩
    rintro ⟨path, hpath⟩
    exact absurd hpath (hnone path)
  · obtain ⟨hexit, hfiles⟩ := generateFound_of_ne_nil settings hnil
    rw [hexit, hfiles]
    have hnone_done : ∀ path ∈ ([] : List String), IsCell files root path := by simp
    rcases generateEach_written hdir.apart hcells (r := { files }) hnone_done
      (written_nil settings files) with
      ⟨hcode, -, hwritten⟩ | ⟨hcode, before, path, rest, hsplit, hnone, hwritten⟩
    · obtain ⟨first, hfirst⟩ := List.exists_mem_of_ne_nil _ hnil
      exact ⟨_, hcells, hwritten, .inl ⟨hcode, ⟨first, hcells first hfirst⟩,
        fun path => hfound.mem_filter_iff.2⟩⟩
    · rw [hsplit] at hcells
      refine ⟨before, fun p hp => hcells p (by simp [hp]), hwritten, .inr ⟨hcode, fun _ => ?_⟩⟩
      exact ⟨path, hcells path (by simp), hnone⟩

/-- What generating the programs of a directory comes to: success where there are cells and all
have code, with the code in the file of each program. Whether or not it succeeds, the only files
that change are programs, which come to hold the code of their own cells. -/
structure BatchOutcome (settings : Settings) (files : FileTree) (root : String) (r : Report) :
    Prop where
  exitCode : r.exitCode = 0 ∨ r.exitCode = 1
  succeeds_iff : r.exitCode = 0 ↔ (∃ path, IsCell files root path) ∧
    ∀ path, IsCell files root path → (codeAt? settings files path).isSome
  program : r.exitCode = 0 → ∀ path, IsCell files root path → ∃ code place,
    codeAt? settings files path = some code ∧ r.files.read (programPath path) = .ok code ∧
      files.locate (programPath path) = .ok place ∧
      r.files.node? place = some (.file code (files.isExecutable place))
  changed : ∀ place, r.files.node? place ≠ files.node? place → ∃ path code,
    IsCell files root path ∧ files.locate (programPath path) = .ok place ∧
      codeAt? settings files path = some code ∧
      r.files.node? place = some (.file code (files.isExecutable place))
  failing : ∀ path place, IsCell files root path → codeAt? settings files path = none →
    files.locate (programPath path) = .ok place → r.files.node? place = files.node? place

theorem Written.exists_of_ne {paths : List String} {after : FileTree}
    (h : Written settings files paths after) (hne : after.node? place ≠ files.node? place) :
    ∃ path ∈ paths, ∃ code, files.locate (programPath path) = .ok place ∧
      codeAt? settings files path = some code ∧
      after.node? place = some (.file code (files.isExecutable place)) := by
  have hpath : ∃ path ∈ paths, files.locate (programPath path) = .ok place := by
    by_contra hnone
    exact hne (h.rest place fun path hpath hlocate => hnone ⟨path, hpath, hlocate⟩)
  obtain ⟨path, hpath, hlocate⟩ := hpath
  obtain ⟨code, hcode, hnode⟩ := h.program path hpath place hlocate
  exact ⟨path, hpath, code, hlocate, hcode, hnode⟩

theorem Written.read_programPath (hdir : IsCellDirectory files root) {paths : List String}
    (hpaths : ∀ path ∈ paths, IsCell files root path) {after : FileTree}
    (h : Written settings files paths after) (hpath : path ∈ paths) :
    ∃ code place, codeAt? settings files path = some code ∧
      after.read (programPath path) = .ok code ∧ files.locate (programPath path) = .ok place ∧
      after.node? place = some (.file code (files.isExecutable place)) := by
  obtain ⟨place, target, hsource⟩ := hdir.apart.source path (hpaths path hpath)
  obtain ⟨code, hcode, hnode⟩ := h.program path hpath target hsource.locate_target
  have hafter := h.isSource hdir.apart hpaths (hpaths path hpath) hsource
  exact ⟨code, target, hcode, FileTree.read_file hafter.locate_target hnode hafter.name_target,
    hsource.locate_target, hnode⟩

theorem outcome_generateFound (settings : Settings) (hdir : IsCellDirectory files root)
    {found : List String} (hfound : Finds files root found) :
    BatchOutcome settings files root (generateFound settings root found files) := by
  obtain ⟨paths, hpaths, hwritten, hexit⟩ := generateFound_written settings hdir hfound
  refine ⟨?_, ?_, ?_, ?_, ?_⟩
  · rcases hexit with ⟨hexit, -⟩ | ⟨hexit, -⟩
    · exact .inl hexit
    · exact .inr hexit
  · rcases hexit with ⟨hexit, hcell, hall⟩ | ⟨hexit, hnone⟩
    · refine ⟨fun _ => ⟨hcell, fun path hpath => ?_⟩, fun _ => hexit⟩
      obtain ⟨code, target, hcode, -⟩ := hwritten.read_programPath hdir hpaths (hall path hpath)
      simp [hcode]
    · refine ⟨fun h => ?_, fun ⟨hcell, hall⟩ => ?_⟩
      · rw [hexit] at h
        cases h
      · obtain ⟨path, hpath, hcode⟩ := hnone hcell
        have hsome := hall path hpath
        rw [hcode] at hsome
        cases hsome
  · rcases hexit with ⟨-, -, hall⟩ | ⟨hexit, -⟩
    · exact fun _ path hpath => hwritten.read_programPath hdir hpaths (hall path hpath)
    · intro h
      rw [hexit] at h
      cases h
  · intro place hne
    obtain ⟨path, hpath, code, hlocate, hcode, hnode⟩ := hwritten.exists_of_ne hne
    exact ⟨path, code, hpaths path hpath, hlocate, hcode, hnode⟩
  · intro path place hpath hnone hlocate
    by_contra hne
    obtain ⟨path', hpath', code, hlocate', hcode, -⟩ := hwritten.exists_of_ne hne
    obtain rfl := hdir.apart.injective path path' hpath (hpaths path' hpath')
      (hlocate.trans hlocate'.symm)
    rw [hnone] at hcode
    cases hcode

namespace BatchOutcome

variable {r r' : Report} (h : BatchOutcome settings files root r)
  (h' : BatchOutcome settings files root r')
include h h'

theorem exitCode_eq : r.exitCode = r'.exitCode := by
  by_cases hzero : r.exitCode = 0
  · rw [hzero, h'.succeeds_iff.2 (h.succeeds_iff.1 hzero)]
  · have hzero' : r'.exitCode ≠ 0 := fun h0 => hzero (h.succeeds_iff.2 (h'.succeeds_iff.1 h0))
    rw [h.exitCode.resolve_left hzero, h'.exitCode.resolve_left hzero']

theorem node?_eq_of_ne (hzero : r'.exitCode = 0) (hne : r.files.node? place ≠ files.node? place) :
    r.files.node? place = r'.files.node? place := by
  obtain ⟨path, code, hpath, hlocate, hcode, hnode⟩ := h.changed place hne
  obtain ⟨code', place', hcode', -, hlocate', hnode'⟩ := h'.program hzero path hpath
  obtain rfl : code = code' := Option.some.inj (hcode.symm.trans hcode')
  obtain rfl : place = place' := Except.ok.inj (hlocate.symm.trans hlocate')
  rw [hnode, hnode']

end BatchOutcome

/-- Two successes leave the same files. -/
theorem BatchOutcome.node?_eq {r r' : Report} (h : BatchOutcome settings files root r)
    (h' : BatchOutcome settings files root r') (hzero : r.exitCode = 0) (place : Place) :
    r.files.node? place = r'.files.node? place := by
  have hzero' : r'.exitCode = 0 := h.exitCode_eq h' ▸ hzero
  by_cases hne : r.files.node? place = files.node? place
  · by_cases hne' : r'.files.node? place = files.node? place
    · rw [hne, hne']
    · exact (h'.node?_eq_of_ne h hzero hne').symm
  · exact h.node?_eq_of_ne h' hzero' hne

/-- Generating the programs of a directory does not depend on the walk through it. -/
theorem generatePath_directory (settings : Settings) (hdir : IsCellDirectory files root) :
    (generatePath settings root files = generateFound settings root (files.paths root) files ∧
      Finds files root (files.paths root)) ∧
    Apart files (IsCell files root) ∧
    (∀ path, IsCell files root path → ∃ place names stem,
      IsCellAt files root place names stem path) ∧
    ∀ found, Finds files root found →
      BatchOutcome settings files root (generateFound settings root found files) ∧
      ∀ found', Finds files root found' →
        (generateFound settings root found files).exitCode =
            (generateFound settings root found' files).exitCode ∧
          ((generateFound settings root found files).exitCode = 0 → ∀ place,
            (generateFound settings root found files).files.node? place =
              (generateFound settings root found' files).files.node? place) := by
  refine ⟨⟨generatePath_of_isDirectory hdir.directory, finds_paths hdir.directory⟩, hdir.apart,
    fun path hpath => ?_, fun found hfound => ?_⟩
  · obtain ⟨place, hroot, -⟩ := FileTree.isDirectory_iff.1 hdir.directory
    exact ⟨place, hpath.exists_isCellAt hdir hroot⟩
  · have houtcome := outcome_generateFound settings hdir hfound
    refine ⟨houtcome, fun found' hfound' => ?_⟩
    have houtcome' := outcome_generateFound settings hdir hfound'
    exact ⟨houtcome.exitCode_eq houtcome', houtcome.node?_eq houtcome'⟩

/-- A directory with a cell whose old program can be run, and further down another cell, whose
name has two points. -/
def nestedFiles : FileTree where
  entries := [
    (["w"], .directory), (["w", "a.json"], .file "\x7b\x7d" false),
    (["w", "a.go"], .file "old" true),
    (["w", "d", "a.b.json"], .file "\x7b \x7d" false)]
  here := ["w"]

theorem forall_isCell_nestedFiles {P : String → Prop} (ha : P "./a.json") (hab : P "./d/a.b.json") :
    ∀ path, IsCell nestedFiles "." path → P path := by
  rintro path ⟨hentry, hcell⟩
  have hroot : nestedFiles.locate "." = .ok ["w"] := by rfl
  rcases hentry.eq_or_exists hroot with rfl | ⟨e, he, habove, names, hnames, rfl⟩
  · exact absurd hcell (by decide)
  · have hcases : ∀ e ∈ nestedFiles.entries, ∀ names ∈ (e.1.drop 1).inits,
        isCellFile (FileTree.entryPath "." names) = true →
          FileTree.entryPath "." names = "./a.json" ∨
            FileTree.entryPath "." names = "./d/a.b.json" := by
      decide +kernel
    rcases hcases e he names hnames hcell with heq | heq
    · exact heq ▸ ha
    · exact heq ▸ hab

theorem generatePath_directory_nestedFiles :
    IsCellDirectory nestedFiles "." ∧ (generatePath {} "." nestedFiles).exitCode = 0 ∧
      ∃ code, codeAt? {} nestedFiles "./a.json" = some code ∧
        (generatePath {} "." nestedFiles).files.read "./a.go" = .ok code := by
  have hdir : IsCellDirectory nestedFiles "." := {
    tree := ⟨by decide, by decide⟩
    directory := by decide +kernel
    file := forall_isCell_nestedFiles (by decide +kernel) (by decide +kernel)
    free := forall_isCell_nestedFiles (by decide +kernel) (by decide +kernel) }
  obtain ⟨⟨hpaths, hfound⟩, -, -, hall⟩ := generatePath_directory {} hdir
  obtain ⟨houtcome, -⟩ := hall _ hfound
  rw [← hpaths] at houtcome
  have hcell : IsCell nestedFiles "." "./a.json" :=
    ⟨⟨["w"], ["a.json"], rfl, rfl, by decide⟩, by decide +kernel⟩
  have hzero := houtcome.succeeds_iff.2 ⟨⟨_, hcell⟩,
    forall_isCell_nestedFiles (by decide +kernel) (by decide +kernel)⟩
  obtain ⟨code, _, hcode, hread, -⟩ := houtcome.program hzero _ hcell
  exact ⟨hdir, hzero, code, hcode, hread⟩

end GoCell.CommandLine
