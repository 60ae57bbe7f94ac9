import GoCell.Go.ImportBlock
import GoCell.Proofs.Go.OneLine
import GoCell.Proofs.Go.QuotedText
import GoCell.Proofs.Text.Words

/-!
The import declaration, line by line. Every entry that is not blank has a line of its own, and
cutting the line at its first space gives back what the entry asks for: its alias, and its path,
as it was quoted or else in a literal that denotes it.
-/

namespace GoCell.Go

open Text (isBlank trim)

/-! ### What an entry asks for -/

/-- Whether a text has two characters or more, and the same quotation mark at both ends. -/
def IsQuoted (l : List Char) : Prop :=
  ∃ q body, (q = '"' ∨ q = '\x60') ∧ l = q :: (body ++ [q])

/-- The alias, if there is one, and the path that an entry without blanks at its ends asks for.
An alias reaches up to the first blank, and the path starts behind the blanks after it. -/
inductive Requests : List Char → Option (List Char) → List Char → Prop
  | path {path : List Char} (h : IsQuoted path ∨ ∀ c ∈ path, isBlank c = false) :
      Requests path none path
  | aliased {name gap path : List Char} (hquoted : ¬IsQuoted (name ++ (gap ++ path)))
      (hname : ∀ c ∈ name, isBlank c = false) (hne : gap ≠ []) (hgap : ∀ c ∈ gap, isBlank c)
      (hpath : ∀ c ∈ path.head?, isBlank c = false) :
      Requests (name ++ (gap ++ path)) (some name) path

/-- Whether a text starts with a quotation mark. -/
def StartsQuoted (l : List Char) : Prop := l.head? = some '"' ∨ l.head? = some '\x60'

instance : DecidablePred StartsQuoted := fun _ => inferInstanceAs (Decidable (_ ∨ _))

/-- Whether what an entry asks for can be told from its line: a path that is quoted holds no
line break, and an alias does not look like a quoted path. -/
structure IsReadable (entry : List Char) : Prop where
  lf_not_mem : ∀ name? path, Requests entry name? path → IsQuoted path → '\n' ∉ path
  not_startsQuoted : ∀ name path, Requests entry (some name) path → ¬StartsQuoted name

/-! ### What a line lists -/

/-- Cuts a line at its first space, unless it starts with a quotation mark. -/
def cutAlias (line : List Char) : Option (List Char) × List Char :=
  if StartsQuoted line then (none, line)
  else match line.dropWhile (· ≠ ' ') with
    | [] => (none, line)
    | _ :: rest => (some (line.takeWhile (· ≠ ' ')), rest)

/-- Whether a text is a path as it is quoted, or else a literal that denotes the path. -/
def IsLiteralOf (path literal : List Char) : Prop :=
  (IsQuoted path → literal = path) ∧
    (¬IsQuoted path → readString? literal = some (path.flatMap String.utf8EncodeChar, []))

/-- Whether a line lists what an entry asks for. -/
def Lists (entry : String) (line : List Char) : Prop :=
  ∃ name? path literal, Requests (trim entry.toList) name? path ∧
    cutAlias line = (name?, literal) ∧ IsLiteralOf path literal

/-! ### Quotation marks -/

theorem exists_eq_enclosed {l : List Char} {q : Char} (hlength : 2 ≤ l.length)
    (hhead : l.head? = some q) (hlast : l.getLast? = some q) :
    ∃ body, l = q :: (body ++ [q]) := by
  obtain ⟨front, rfl⟩ := List.getLast?_eq_some_iff.1 hlast
  cases front with
  | nil => simp at hlength
  | cons c body =>
      obtain rfl : c = q := by simpa using hhead
      exact ⟨body, rfl⟩

theorem isQuoted_iff {l : List Char} : isQuoted l = true ↔ IsQuoted l := by
  simp only [isQuoted, Bool.and_eq_true, Bool.or_eq_true, decide_eq_true_eq, beq_iff_eq]
  constructor
  · rintro ⟨hlength, ⟨hhead, hlast⟩ | ⟨hhead, hlast⟩⟩
    · obtain ⟨body, hl⟩ := exists_eq_enclosed hlength hhead hlast
      exact ⟨_, body, .inl rfl, hl⟩
    · obtain ⟨body, hl⟩ := exists_eq_enclosed hlength hhead hlast
      exact ⟨_, body, .inr rfl, hl⟩
  · rintro ⟨q, body, rfl | rfl, rfl⟩
    · exact ⟨by simp, .inl ⟨rfl, by simp [List.getLast?_cons]⟩⟩
    · exact ⟨by simp, .inr ⟨rfl, by simp [List.getLast?_cons]⟩⟩

instance : DecidablePred IsQuoted := fun _ => decidable_of_iff _ isQuoted_iff

theorem IsQuoted.startsQuoted {l : List Char} (h : IsQuoted l) : StartsQuoted l := by
  obtain ⟨q, body, rfl | rfl, rfl⟩ := h
  · exact .inl rfl
  · exact .inr rfl

theorem pathLiteral_eq (path : List Char) :
    pathLiteral path = if IsQuoted path then path else quoteChars path := by
  simp only [pathLiteral, isQuoted_iff]

theorem startsQuoted_pathLiteral (path : List Char) : StartsQuoted (pathLiteral path) := by
  rw [pathLiteral_eq]
  split
  · next h => exact h.startsQuoted
  · exact .inl rfl

theorem isLiteralOf_pathLiteral (path : List Char) : IsLiteralOf path (pathLiteral path) := by
  rw [pathLiteral_eq]
  refine ⟨fun h => if_pos h, fun h => ?_⟩
  rw [if_neg h, quoteChars, readString?, if_pos rfl]
  exact readInterpreted?_flatMap_quoteChar path []

theorem lf_not_mem_pathLiteral {path : List Char} (h : IsQuoted path → '\n' ∉ path) :
    '\n' ∉ pathLiteral path := by
  rw [pathLiteral_eq]
  split
  · next hquoted => exact h hquoted
  · have honeLine := oneLine_quote (String.ofList path)
    rw [quote, String.toList_ofList, String.toList_ofList] at honeLine
    exact honeLine.lf_not_mem

/-! ### The parts of an entry -/

section Parts

variable {name gap path : List Char}

/-- An alias ends where the blanks after it start. -/
theorem head?_gap (hne : gap ≠ []) (hgap : ∀ c ∈ gap, isBlank c) :
    ∀ c ∈ (gap ++ path).head?, (!isBlank c) = false := by
  obtain ⟨d, gap, rfl⟩ := List.exists_cons_of_ne_nil hne
  intro c hc
  obtain rfl : d = c := by simpa using hc
  simp [hgap d List.mem_cons_self]

theorem takeWhile_entry (hname : ∀ c ∈ name, isBlank c = false) (hne : gap ≠ [])
    (hgap : ∀ c ∈ gap, isBlank c) : (name ++ (gap ++ path)).takeWhile (!isBlank ·) = name :=
  Text.takeWhile_append_of_head (by simpa using hname) (head?_gap hne hgap)

theorem dropWhile_entry (hname : ∀ c ∈ name, isBlank c = false) (hne : gap ≠ [])
    (hgap : ∀ c ∈ gap, isBlank c) :
    (name ++ (gap ++ path)).dropWhile (!isBlank ·) = gap ++ path :=
  Text.dropWhile_append_of_head (by simpa using hname) (head?_gap hne hgap)

/-- An entry with an alias is neither a quoted path nor free of blanks. -/
theorem not_path_of_gap (hquoted : ¬IsQuoted (name ++ (gap ++ path))) (hne : gap ≠ [])
    (hgap : ∀ c ∈ gap, isBlank c) :
    ¬(IsQuoted (name ++ (gap ++ path)) ∨ ∀ c ∈ name ++ (gap ++ path), isBlank c = false) := by
  intro h
  obtain ⟨d, gap, rfl⟩ := List.exists_cons_of_ne_nil hne
  have hblank := h.resolve_left hquoted d (by simp)
  rw [hgap d List.mem_cons_self] at hblank
  cases hblank

end Parts

/-- What an entry asks for is determined by it. -/
theorem Requests.unique {entry : List Char} {name₁ name₂ : Option (List Char)}
    {path₁ path₂ : List Char} (h₁ : Requests entry name₁ path₁) (h₂ : Requests entry name₂ path₂) :
    name₁ = name₂ ∧ path₁ = path₂ := by
  cases h₁ with
  | path h =>
      cases h₂ with
      | path _ => exact ⟨rfl, rfl⟩
      | aliased hquoted _ hne hgap _ => exact absurd h (not_path_of_gap hquoted hne hgap)
  | @aliased name₁ gap₁ _ hquoted hname₁ hne₁ hgap₁ hpath₁ =>
      generalize hentry : name₁ ++ (gap₁ ++ path₁) = entry at h₂
      cases h₂ with
      | path h =>
          rw [← hentry] at h
          exact absurd h (not_path_of_gap hquoted hne₁ hgap₁)
      | @aliased name₂ gap₂ _ _ hname₂ hne₂ hgap₂ hpath₂ =>
          have hname := congrArg (List.takeWhile (!isBlank ·)) hentry
          rw [takeWhile_entry hname₁ hne₁ hgap₁, takeWhile_entry hname₂ hne₂ hgap₂] at hname
          subst hname
          have hrest := congrArg (List.dropWhile isBlank) (List.append_cancel_left hentry)
          rw [Text.dropWhile_append_of_head hgap₁ hpath₁,
            Text.dropWhile_append_of_head hgap₂ hpath₂] at hrest
          exact ⟨rfl, hrest⟩

/-- What an entry asks for. -/
def request (entry : List Char) : Option (List Char) × List Char :=
  if IsQuoted entry then (none, entry)
  else match entry.dropWhile (!isBlank ·) with
    | [] => (none, entry)
    | rest => (some (entry.takeWhile (!isBlank ·)), rest.dropWhile isBlank)

theorem requests_request (entry : List Char) :
    Requests entry (request entry).1 (request entry).2 := by
  unfold request
  split
  · next hquoted => exact .path (.inl hquoted)
  next hquoted =>
  have hsplit := List.takeWhile_append_dropWhile (p := (!isBlank ·)) (l := entry)
  have hname : ∀ c ∈ entry.takeWhile (!isBlank ·), isBlank c = false := by
    intro c hc
    simpa using List.mem_takeWhile_imp hc
  split
  · next hdrop =>
    rw [hdrop, List.append_nil] at hsplit
    rw [hsplit] at hname
    exact .path (.inr hname)
  · next hrest =>
    obtain ⟨d, rest, hdrop⟩ := List.exists_cons_of_ne_nil hrest
    have hd : isBlank d := by
      have hhead := List.head?_dropWhile_not (!isBlank ·) entry
      simpa [hdrop] using hhead
    have hgap := List.takeWhile_append_dropWhile (p := isBlank) (l := d :: rest)
    have hpath : ∀ c ∈ ((d :: rest).dropWhile isBlank).head?, isBlank c = false := by
      intro c hc
      have hhead := List.head?_dropWhile_not isBlank (d :: rest)
      rw [Option.mem_def.1 hc] at hhead
      simpa using hhead
    rw [hdrop, ← hgap] at hsplit
    have haliased := Requests.aliased (hsplit.symm ▸ hquoted) hname (by simp [hd])
      (fun c hc => List.mem_takeWhile_imp hc) hpath
    rwa [hsplit, ← hdrop] at haliased

theorem isReadable_iff {entry : List Char} :
    IsReadable entry ↔ (IsQuoted (request entry).2 → '\n' ∉ (request entry).2) ∧
      ∀ name ∈ (request entry).1, ¬StartsQuoted name := by
  have hrequest := requests_request entry
  constructor
  · rintro ⟨hlf, hstart⟩
    exact ⟨hlf _ _ hrequest, fun name hname => hstart name _ (hname ▸ hrequest)⟩
  · rintro ⟨hlf, hstart⟩
    constructor
    · intro name? path h
      obtain ⟨-, rfl⟩ := h.unique hrequest
      exact hlf
    · intro name path h
      exact hstart name (h.unique hrequest).1.symm

instance : DecidablePred IsReadable := fun _ => decidable_of_iff _ isReadable_iff.symm

/-! ### The lines -/

/-- What is written for an entry is its alias, if there is one, and the literal of its path. -/
theorem importSpec_of_requests {entry path : List Char} {name? : Option (List Char)}
    (h : Requests entry name? path) (hlast : ∀ c ∈ entry.getLast?, isBlank c = false) :
    importSpec entry = (name?.elim [] (· ++ [' '])) ++ pathLiteral path := by
  cases h with
  | path h =>
      rw [Option.elim_none, List.nil_append, pathLiteral_eq, importSpec]
      simp only [isQuoted_iff]
      split
      · rfl
      · next hquoted =>
        have hdrop : entry.dropWhile (!isBlank ·) = [] := by
          simpa using h.resolve_left hquoted
        rw [hdrop]
  | @aliased name gap _ hquoted hname hne hgap hpath =>
      have htrim : ∀ rest, (∀ c ∈ rest, isBlank c) → trim (rest ++ path) = path := by
        intro rest hrest
        rw [trim, Text.dropWhile_append_of_head hrest hpath]
        refine Text.dropEndWhile_eq_self fun c hc => hlast c ?_
        rw [List.getLast?_append, List.getLast?_append, Option.mem_def.1 hc]
        rfl
      rw [importSpec, if_neg (mt isQuoted_iff.1 hquoted), dropWhile_entry hname hne hgap,
        takeWhile_entry hname hne hgap]
      obtain ⟨d, gap, rfl⟩ := List.exists_cons_of_ne_nil hne
      have hpathTrim := htrim gap (List.forall_mem_cons.1 hgap).2
      simp [hpathTrim]

theorem not_mem_of_isBlank {c : Char} {name : List Char} (hc : isBlank c)
    (h : ∀ c ∈ name, isBlank c = false) : c ∉ name := by
  intro hmem
  rw [h c hmem] at hc
  cases hc

theorem cutAlias_of_startsQuoted {line : List Char} (h : StartsQuoted line) :
    cutAlias line = (none, line) := if_pos h

/-- An alias is cut off at the space behind it. -/
theorem cutAlias_append {name : List Char} (hname : ∀ c ∈ name, isBlank c = false)
    (hstart : ¬StartsQuoted name) (rest : List Char) :
    cutAlias (name ++ ' ' :: rest) = (some name, rest) := by
  have hline : ¬StartsQuoted (name ++ ' ' :: rest) := by
    cases name with
    | nil => simp [StartsQuoted]
    | cons c name => exact hstart
  have hword : ∀ c ∈ name, decide (c ≠ ' ') = true := by
    intro c hc
    exact decide_eq_true fun hspace => not_mem_of_isBlank (by decide) hname (hspace ▸ hc)
  have hspace : ∀ c ∈ (' ' :: rest).head?, decide (c ≠ ' ') = false := by simp
  rw [cutAlias, if_neg hline, Text.dropWhile_append_of_head hword hspace,
    Text.takeWhile_append_of_head hword hspace]

/-- The line of an entry reads back as what the entry asks for. -/
theorem cutAlias_importSpec {entry path : List Char} {name? : Option (List Char)}
    (hentry : IsReadable entry) (h : Requests entry name? path)
    (hlast : ∀ c ∈ entry.getLast?, isBlank c = false) :
    cutAlias (importSpec entry) = (name?, pathLiteral path) := by
  rw [importSpec_of_requests h hlast]
  cases name? with
  | none => exact cutAlias_of_startsQuoted (startsQuoted_pathLiteral path)
  | some name =>
      have hstart := hentry.not_startsQuoted name path h
      rw [Option.elim_some, List.append_assoc, List.singleton_append]
      cases h with
      | aliased _ hname _ _ _ => exact cutAlias_append hname hstart _

theorem lf_not_mem_importSpec {entry : List Char} (hentry : IsReadable entry)
    (hlast : ∀ c ∈ entry.getLast?, isBlank c = false) : '\n' ∉ importSpec entry := by
  obtain ⟨name?, path, h⟩ : ∃ name? path, Requests entry name? path :=
    ⟨_, _, requests_request entry⟩
  have hpath := lf_not_mem_pathLiteral (hentry.lf_not_mem name? path h)
  rw [importSpec_of_requests h hlast, List.mem_append, not_or]
  refine ⟨?_, hpath⟩
  cases h with
  | path _ => simp
  | aliased _ hname _ _ _ =>
      rw [Option.elim_some, List.mem_append, not_or]
      exact ⟨not_mem_of_isBlank (by decide) hname, by decide⟩

theorem lists_importSpec {entry : String} (hentry : IsReadable (trim entry.toList)) :
    Lists entry (importSpec (trim entry.toList)) := by
  have h := requests_request (trim entry.toList)
  have hcut := cutAlias_importSpec hentry h fun _ => Text.isBlank_of_mem_getLast?_trim
  exact ⟨_, _, _, h, hcut, isLiteralOf_pathLiteral _⟩

/-! ### The declaration -/

/-- Whether an entry holds nothing but blanks. -/
def IsBlankEntry (entry : String) : Prop := ∀ c ∈ entry.toList, isBlank c

instance : DecidablePred IsBlankEntry :=
  fun entry => decidable_of_iff (entry.toList.all isBlank = true) List.all_eq_true

/-- There is a line for each entry that is not blank. -/
theorem importLines_eq (imports : List String) :
    importLines imports =
      (imports.filter (¬IsBlankEntry ·)).map fun entry => importSpec (trim entry.toList) := by
  have hblank (entry : String) :
      (!(trim entry.toList).isEmpty) = decide (¬IsBlankEntry entry) := by
    rw [Bool.eq_iff_iff, Bool.not_eq_true', decide_eq_true_iff, List.isEmpty_eq_false_iff, ne_eq,
      Text.trim_eq_nil_iff]
    rfl
  rw [importLines, List.filter_map, List.map_map]
  refine congrArg _ (List.filter_congr fun entry _ => ?_)
  exact hblank entry

theorem importBlock?_eq_none_iff {imports : List String} :
    importBlock? imports = none ↔ ∀ entry ∈ imports, IsBlankEntry entry := by
  have hlines : importBlock? imports = none ↔ importLines imports = [] := by
    unfold importBlock?
    split <;> simp_all
  rw [hlines, importLines_eq, List.map_eq_nil_iff, List.filter_eq_nil_iff]
  simp

/-- The declaration has its lines between the first and the last one, each behind a tab. -/
theorem splitOn_importBlock? {imports : List String} {block : String}
    (h : importBlock? imports = some block) (hlines : ∀ line ∈ importLines imports, '\n' ∉ line) :
    block.toList.splitOn '\n' =
      "import (".toList :: ((importLines imports).map ('\t' :: ·) ++ [[')'], []]) := by
  have hblock : block.toList = ("import (".toList :: ((importLines imports).map ('\t' :: ·) ++
      [[')']])).flatMap (· ++ ['\n']) := by
    unfold importBlock? at h
    split at h
    · cases h
    · obtain rfl := Option.some.inj h
      simp [List.flatMap_map]
  have hall : ∀ line ∈ "import (".toList :: ((importLines imports).map ('\t' :: ·) ++ [[')']]),
      '\n' ∉ line := by
    rw [List.forall_mem_cons, List.forall_mem_append, List.forall_mem_map,
      List.forall_mem_singleton]
    refine ⟨by decide, fun line hline => ?_, by decide⟩
    simpa using hlines line hline
  rw [hblock, Text.splitOn_flatMap_lf hall]
  simp

/-- Where quoted paths hold no line break and aliases do not look quoted, there is a declaration
unless all entries are blank, and it lists the others in order, one on a line. -/
theorem importBlock?_lists {imports : List String}
    (h : ∀ entry ∈ imports, IsReadable (trim entry.toList)) :
    (importBlock? imports = none ↔ ∀ entry ∈ imports, IsBlankEntry entry) ∧
      ∀ block, importBlock? imports = some block → ∃ lines,
        block.toList.splitOn '\n' = "import (".toList :: (lines.map ('\t' :: ·) ++ [[')'], []]) ∧
          List.Forall₂ Lists (imports.filter (¬IsBlankEntry ·)) lines := by
  refine ⟨importBlock?_eq_none_iff, fun block hblock => ⟨importLines imports, ?_, ?_⟩⟩
  · apply splitOn_importBlock? hblock
    rw [importLines_eq, List.forall_mem_map]
    intro entry hentry
    exact lf_not_mem_importSpec (h entry (List.mem_of_mem_filter hentry))
      fun _ => Text.isBlank_of_mem_getLast?_trim
  · rw [importLines_eq, List.forall₂_map_right_iff, List.forall₂_same]
    intro entry hentry
    exact lists_importSpec (h entry (List.mem_of_mem_filter hentry))

/-- Entries with and without alias and quotation marks, blanks of several kinds, and marks that
quote nothing. -/
def mixedImports : List String :=
  ["fmt", " \t", "f \n net/http ", ". \"math\"", "`a b`", "x `a\tb`\n", "\"lone", "_ q\"\nr"]

theorem importBlock?_lists_mixedImports :
    (∀ entry ∈ mixedImports, IsReadable (trim entry.toList)) ∧
      ∃ block lines, importBlock? mixedImports = some block ∧
        block.toList.splitOn '\n' = "import (".toList :: (lines.map ('\t' :: ·) ++ [[')'], []]) ∧
          List.Forall₂ Lists (mixedImports.filter (¬IsBlankEntry ·)) lines := by
  have hreadable : ∀ entry ∈ mixedImports, IsReadable (trim entry.toList) := by decide
  obtain ⟨block, hblock⟩ := Option.isSome_iff_exists.1
    (show (importBlock? mixedImports).isSome by decide)
  obtain ⟨lines, hlines⟩ := (importBlock?_lists hreadable).2 block hblock
  exact ⟨hreadable, block, lines, hblock, hlines⟩

end GoCell.Go
