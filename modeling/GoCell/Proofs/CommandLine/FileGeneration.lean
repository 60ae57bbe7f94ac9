import GoCell.CommandLine.Generation
import GoCell.Proofs.Files.Tree

/-!
Generating the programs of files one after another. Where no program has the place of
another or of a file that is read, what is generated from a file does not depend on what
was generated before, and the files that are left are the old ones with some programs set.
-/

namespace GoCell.CommandLine

variable {settings : Settings} {files after : FileTree} {path : String} {place target : Place}

/-- The path of the program that is written beside a file. -/
def programPath (path : String) : String := Path.withExtension path "go"

/-- The code of the cell in a text, if there is one that has code. -/
def codeOfText? (settings : Settings) (text : String) : Option String :=
  (Cell.parse text).toOption.bind fun cell => (cell.generate settings).toOption

/-- The code of the cell in a file, if there is one that has code. -/
def codeAt? (settings : Settings) (files : FileTree) (path : String) : Option String :=
  (files.read path).toOption.bind (codeOfText? settings)

theorem toOption_assembleText (settings : Settings) (path : Option String) (text : String) :
    (assembleText settings path text).toOption.map Program.render = codeOfText? settings text := by
  rw [assembleText, codeOfText?]
  cases Cell.parse text with
  | error fault => rfl
  | ok cell =>
      dsimp only
      rw [Except.toOption, Option.bind_some, Cell.generate]
      cases cell.assemble settings with
      | error e => rfl
      | ok program => rfl

/-! ### One file -/

/-- Whether a path leads to a file that can be read and its program can be written. -/
structure IsSource (files : FileTree) (path : String) (place target : Place) : Prop where
  locate : files.locate path = .ok place
  file : ∃ text executable, files.node? place = some (.file text executable)
  name : Path.namesDirectory path = false
  locate_target : files.locate (programPath path) = .ok target
  name_target : Path.namesDirectory (programPath path) = false
  free : files.node? target ≠ some .directory
  parent : files.node? target.dropLast = some .directory

namespace IsSource

theorem codeAt?_eq (h : IsSource files path place target) {text : String} {executable : Bool}
    (hnode : files.node? place = some (.file text executable)) :
    codeAt? settings files path = codeOfText? settings text := by
  rw [codeAt?, FileTree.read_file h.locate hnode h.name]
  rfl

theorem canHold (h : IsSource files path place target) : files.CanHold target := .inr h.parent

/-- A source is one as long as it, its program's place and the directories are there. -/
theorem congr (h : IsSource files path place target) (hhere : after.here = files.here)
    (hdirectories : ∀ place, files.node? place = some .directory →
      after.node? place = some .directory)
    (hplace : after.node? place = files.node? place)
    (hfree : after.node? target ≠ some .directory) : IsSource after path place target where
  locate := FileTree.locate_of_directories hhere hdirectories h.locate
  file := hplace ▸ h.file
  name := h.name
  locate_target := FileTree.locate_of_directories hhere hdirectories h.locate_target
  name_target := h.name_target
  free := hfree
  parent := hdirectories _ h.parent

end IsSource

/-- A file whose cell has code sets its program to the code and changes nothing else. -/
theorem exists_generateFile_eq_ok (h : IsSource files path place target) {code : String}
    (hcode : codeAt? settings files path = some code) :
    ∃ notice, generateFile settings files path =
      .ok (files.set target (.file code (files.isExecutable target)), notice) := by
  obtain ⟨text, executable, hnode⟩ := h.file
  rw [h.codeAt?_eq hnode, ← toOption_assembleText settings (some path) text,
    Option.map_eq_some_iff] at hcode
  obtain ⟨program, hprogram, rfl⟩ := hcode
  have hassemble := eq_ok_of_toOption hprogram
  have hwrite := FileTree.write_eq program.render h.locate_target h.name_target h.free h.parent
  refine ⟨.generated path (programPath path) program.summary, ?_⟩
  rw [generateFile, FileTree.read_file h.locate hnode h.name]
  simp only [Except.mapError, ok_bind, hassemble]
  rw [← programPath, hwrite]
  rfl

theorem exists_generateFile_eq_error (h : IsSource files path place target)
    (hcode : codeAt? settings files path = none) :
    ∃ failure, generateFile settings files path = .error failure := by
  obtain ⟨text, executable, hnode⟩ := h.file
  rw [h.codeAt?_eq hnode, ← toOption_assembleText settings (some path) text,
    Option.map_eq_none_iff] at hcode
  rw [generateFile, FileTree.read_file h.locate hnode h.name]
  simp only [Except.mapError, ok_bind]
  cases hassemble : assembleText settings (some path) text with
  | error failure => exact ⟨failure, rfl⟩
  | ok program =>
      rw [hassemble] at hcode
      cases hcode

/-! ### One file after another -/

/-- Whether no program of some files has the place of another program or of one of the files. -/
structure Apart (files : FileTree) (sources : String → Prop) : Prop where
  source : ∀ path, sources path → ∃ place target, IsSource files path place target
  injective : ∀ path path', sources path → sources path' →
    files.locate (programPath path) = files.locate (programPath path') → path = path'
  unread : ∀ path path', sources path → sources path' →
    files.locate (programPath path) ≠ files.locate path'

/-- Whether files are what they were but for the programs of some of them. -/
structure Written (settings : Settings) (files : FileTree) (paths : List String)
    (after : FileTree) : Prop where
  here : after.here = files.here
  program : ∀ path ∈ paths, ∀ target, files.locate (programPath path) = .ok target →
    ∃ code, codeAt? settings files path = some code ∧
      after.node? target = some (.file code (files.isExecutable target))
  rest : ∀ place, (∀ path ∈ paths, files.locate (programPath path) ≠ .ok place) →
    after.node? place = files.node? place

theorem written_nil (settings : Settings) (files : FileTree) : Written settings files [] files where
  here := rfl
  program := by simp
  rest := fun place _ => rfl

theorem Written.isExecutable_eq {paths : List String} (h : Written settings files paths after)
    (target : Place) : after.isExecutable target = files.isExecutable target := by
  by_cases hwritten : ∃ path ∈ paths, files.locate (programPath path) = .ok target
  · obtain ⟨path, hpath, hlocate⟩ := hwritten
    obtain ⟨code, -, hnode⟩ := h.program path hpath target hlocate
    rw [FileTree.isExecutable, hnode]
  · rw [FileTree.isExecutable, h.rest target fun path hpath hlocate =>
      hwritten ⟨path, hpath, hlocate⟩, FileTree.isExecutable]

section Apart

variable {sources : String → Prop} (hapart : Apart files sources)
include hapart

namespace Written

variable {paths : List String} (hpaths : ∀ path ∈ paths, sources path)
  (h : Written settings files paths after)
include hpaths h

theorem directories (hplace : files.node? place = some .directory) :
    after.node? place = some .directory := by
  rw [h.rest place, hplace]
  intro path hpath hlocate
  obtain ⟨_, target, hsource⟩ := hapart.source path (hpaths path hpath)
  obtain rfl : target = place := Except.ok.inj (hsource.locate_target.symm.trans hlocate)
  exact hsource.free hplace

theorem node?_eq (hsource : sources path) (hlocate : files.locate path = .ok place) :
    after.node? place = files.node? place := by
  refine h.rest place fun path' hpath' hlocate' => ?_
  exact hapart.unread path' path (hpaths path' hpath') hsource (hlocate'.trans hlocate.symm)

theorem isSource (hpath : sources path) (hsource : IsSource files path place target) :
    IsSource after path place target := by
  refine hsource.congr h.here (fun place => h.directories hapart hpaths)
    (h.node?_eq hapart hpaths hpath hsource.locate) ?_
  by_cases hwritten : path ∈ paths
  · obtain ⟨code, -, hnode⟩ := h.program path hwritten target hsource.locate_target
    simp [hnode]
  · rw [h.rest target]
    · exact hsource.free
    · intro path' hpath' hlocate
      have heq := hapart.injective path' path (hpaths path' hpath') hpath
        (hlocate.trans hsource.locate_target.symm)
      exact hwritten (heq ▸ hpath')

theorem codeAt?_eq (hpath : sources path) :
    codeAt? settings after path = codeAt? settings files path := by
  obtain ⟨place, target, hsource⟩ := hapart.source path hpath
  obtain ⟨text, executable, hnode⟩ := hsource.file
  have hnode' := (h.node?_eq hapart hpaths hpath hsource.locate).trans hnode
  rw [hsource.codeAt?_eq hnode, (h.isSource hapart hpaths hpath hsource).codeAt?_eq hnode']

/-- Another file whose cell has code adds its program. -/
theorem exists_generateFile_eq_ok (hpath : sources path) {code : String}
    (hcode : codeAt? settings files path = some code) :
    ∃ next notice, generateFile settings after path = .ok (next, notice) ∧
      Written settings files (paths ++ [path]) next := by
  obtain ⟨place, target, hsource⟩ := hapart.source path hpath
  have hsource' := h.isSource hapart hpaths hpath hsource
  obtain ⟨notice, hgenerate⟩ := CommandLine.exists_generateFile_eq_ok hsource'
    ((h.codeAt?_eq hapart hpaths hpath).trans hcode)
  have hnode := FileTree.node?_set hsource'.canHold (.file code (after.isExecutable target))
  refine ⟨_, notice, hgenerate, ?_⟩
  rw [h.isExecutable_eq] at hnode ⊢
  refine ⟨(FileTree.here_set _ _ _).trans h.here, ?_, ?_⟩
  · intro path' hpath' target' hlocate'
    rw [hnode]
    by_cases htarget : target' = target
    · subst htarget
      have hpath'' : sources path' := by
        rcases List.mem_append.1 hpath' with hpath' | hpath'
        · exact hpaths path' hpath'
        · exact List.mem_singleton.1 hpath' ▸ hpath
      obtain rfl := hapart.injective path' path hpath'' hpath
        (hlocate'.trans hsource.locate_target.symm)
      exact ⟨code, hcode, if_pos rfl⟩
    · rw [if_neg htarget]
      refine h.program path' ?_ target' hlocate'
      refine (List.mem_append.1 hpath').resolve_right fun hlast => ?_
      rw [List.mem_singleton.1 hlast, hsource.locate_target] at hlocate'
      exact htarget (Except.ok.inj hlocate').symm
  · intro place' hplace'
    rw [hnode, if_neg]
    · exact h.rest place' fun path' hpath' => hplace' path' (List.mem_append_left _ hpath')
    · rintro rfl
      exact hplace' path (by simp) hsource.locate_target

theorem exists_generateFile_eq_error (hpath : sources path)
    (hcode : codeAt? settings files path = none) :
    ∃ failure, generateFile settings after path = .error failure := by
  obtain ⟨place, target, hsource⟩ := hapart.source path hpath
  exact CommandLine.exists_generateFile_eq_error (h.isSource hapart hpaths hpath hsource)
    ((h.codeAt?_eq hapart hpaths hpath).trans hcode)

end Written

/-- Either all programs are written, or those before the first file whose cell has no code. -/
theorem generateEach_written {todo : List String} (htodo : ∀ path ∈ todo, sources path)
    {done : List String} (hdone : ∀ path ∈ done, sources path) {r : Report}
    (h : Written settings files done r.files) :
    (generateEach settings todo r).exitCode = r.exitCode ∧
        (∀ path ∈ todo, (codeAt? settings files path).isSome) ∧
        Written settings files (done ++ todo) (generateEach settings todo r).files ∨
      (generateEach settings todo r).exitCode = 1 ∧
        ∃ before path rest, todo = before ++ path :: rest ∧ codeAt? settings files path = none ∧
          Written settings files (done ++ before) (generateEach settings todo r).files := by
  induction todo generalizing done r with
  | nil => exact .inl ⟨rfl, by simp, by simpa [generateEach] using h⟩
  | cons path todo ih =>
      obtain ⟨hpath, htodo⟩ := List.forall_mem_cons.1 htodo
      rw [generateEach]
      cases hcode : codeAt? settings files path with
      | none =>
          obtain ⟨failure, hgenerate⟩ := h.exists_generateFile_eq_error hapart hdone hpath hcode
          rw [hgenerate]
          exact .inr ⟨rfl, [], path, todo, rfl, hcode, by simpa [Report.fail] using h⟩
      | some code =>
          obtain ⟨next, notice, hgenerate, hnext⟩ :=
            h.exists_generateFile_eq_ok hapart hdone hpath hcode
          rw [hgenerate]
          have hdone' : ∀ p ∈ done ++ [path], sources p := by
            simpa [or_imp, forall_and] using And.intro hdone hpath
          rcases ih (r := { r with files := next, notices := r.notices ++ [notice] }) htodo hdone'
            hnext with
            ⟨hexit, hall, hwritten⟩ | ⟨hexit, before, failing, rest, hsplit, hnone, hwritten⟩
          · refine .inl ⟨hexit, List.forall_mem_cons.2 ⟨by simp [hcode], hall⟩, ?_⟩
            simpa using hwritten
          · refine .inr ⟨hexit, path :: before, failing, rest, by simp [hsplit], hnone, ?_⟩
            simpa using hwritten

end Apart

end GoCell.CommandLine
