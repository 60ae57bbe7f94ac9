import GoCell.Proofs.Go.EntryPoint
import GoCell.Proofs.Go.Place
import GoCell.Proofs.Program.BodyText

/-!
Whether a program that is asked to have a `main` has one in its code. The search for one
goes line by line and knows nothing of comments and raw texts, so a `main` that stands in one
of these is enough for the body not to be wrapped.
-/

namespace GoCell

open Text (trimBreaks isLineBreak)

namespace Go

/-- Whether a text has, at the start of a line up to spaces and tabs, a head of `main` that
stands in code. -/
def DefinesMain (text : List Char) : Prop :=
  ∃ before gap head after, text = before ++ gap ++ head ++ after ∧ EndsLine before ∧
    (∀ c ∈ gap, c = ' ' ∨ c = '\t') ∧ IsMainHead head ∧ head.head? = some 'f' ∧
    (Place.code.after (before ++ gap)).isCode

/-- The gap before a head may be counted to the head. -/
theorem definesMain_iff {text : List Char} :
    DefinesMain text ↔ ∃ before head after, text = before ++ head ++ after ∧ EndsLine before ∧
      IsMainHead head ∧ (Place.code.after before).isCode := by
  constructor
  · rintro ⟨before, gap, head, after, rfl, hbefore, hgap, ⟨g₁, g₂, g₃, g₄, rfl, hne, hgaps⟩, -,
      hcode⟩
    rw [Place.after_append, Place.isCode_after hgap] at hcode
    refine ⟨before, _, after, ?_, hbefore, ⟨gap ++ g₁, g₂, g₃, g₄, rfl, hne, ?_⟩, hcode⟩
    · simp
    · intro c hc
      simp only [List.append_assoc] at hc hgaps
      exact (List.mem_append.1 hc).elim (hgap c) (hgaps c)
  · rintro ⟨before, head, after, rfl, hbefore, ⟨gap, g₂, g₃, g₄, rfl, hne, hgaps⟩, hcode⟩
    have hgap : ∀ c ∈ gap, c = ' ' ∨ c = '\t' := fun c hc => hgaps c (by simp [hc])
    refine ⟨before, gap, _, after, ?_, hbefore, hgap, ⟨[], g₂, g₃, g₄, rfl, hne, ?_⟩, rfl, ?_⟩
    · simp
    · intro c hc
      simp only [List.append_assoc, List.nil_append] at hc hgaps
      exact hgaps c (List.mem_append_right _ hc)
    · rwa [Place.after_append, Place.isCode_after hgap]

instance (l : List Char) : Decidable (EndsLine l) :=
  inferInstanceAs (Decidable (l = [] ∨ l.getLast? = some '\n'))

theorem definesMain_iff_exists_le {text : List Char} :
    DefinesMain text ↔ ∃ i ∈ List.range (text.length + 1), EndsLine (text.take i) ∧
      startsMain (text.drop i) ∧ (Place.code.after (text.take i)).isCode := by
  simp only [definesMain_iff, startsMain_iff]
  constructor
  · rintro ⟨before, head, after, rfl, hbefore, hhead, hcode⟩
    refine ⟨before.length, ?_, ?_⟩
    · rw [List.mem_range, List.length_append, List.length_append]
      omega
    · rw [List.append_assoc, List.take_left, List.drop_left]
      exact ⟨hbefore, ⟨head, after, rfl, hhead⟩, hcode⟩
  · rintro ⟨i, -, hbefore, ⟨head, after, hdrop, hhead⟩, hcode⟩
    refine ⟨text.take i, head, after, ?_, hbefore, hhead, hcode⟩
    rw [List.append_assoc, ← hdrop, List.take_append_drop]

instance : DecidablePred DefinesMain := fun _ => decidable_of_iff _ definesMain_iff_exists_le.symm

/-- A `main` in code is one that the search finds. -/
theorem DefinesMain.hasMain {text : String} (h : DefinesMain text.toList) : hasMain text := by
  obtain ⟨before, head, after, htext, hbefore, hhead, -⟩ := definesMain_iff.1 h
  exact hasMain_iff.2 ⟨before, head, after, htext, hbefore, hhead⟩

theorem definesMain_wrapMain (body : String) : DefinesMain (wrapMain body).toList := by
  refine ⟨[], [], "func main()".toList,
    " \x7b\n".toList ++ trimBreaks body.toList ++ "\n\x7d".toList, ?_, .inl rfl, by simp,
    ⟨[], [' '], [], [], rfl, by simp, by simp⟩, rfl, rfl⟩
  rw [wrapMain]
  simp

/-- Whether a `main` stands in code does not depend on the line breaks at the end. -/
theorem definesMain_trimBreaks_iff {text : List Char} :
    DefinesMain (trimBreaks text) ↔ DefinesMain text := by
  simp only [definesMain_iff]
  constructor
  · rintro ⟨before, head, after, htext, h⟩
    obtain ⟨breaks, hbreaks, -⟩ := Text.exists_dropEndWhile_append isLineBreak text
    refine ⟨before, head, after ++ breaks, ?_, h⟩
    rw [hbreaks, ← trimBreaks, htext, List.append_assoc _ after]
  · rintro ⟨before, head, after, rfl, hbefore, hhead, hcode⟩
    refine ⟨before, head, trimBreaks after, ?_, hbefore, hhead, hcode⟩
    -- The last character of a head is no line break, so the head is not cut.
    obtain ⟨front, rfl⟩ := List.getLast?_eq_some_iff.1 (getLast?_of_isMainHead hhead)
    have := Text.dropEndWhile_append_cons_of_neg (before ++ front) after
      (show isLineBreak ')' = false by decide)
    simpa [trimBreaks] using this

/-- A line starts in code if neither a comment mark nor a mark of a raw text stands before. -/
theorem isCode_of_endsLine {l : List Char} (h : EndsLine l) (hraw : '\x60' ∉ l)
    (hblock : ¬['/', '*'] <:+: l) : (Place.code.after l).isCode := by
  rcases h with rfl | hlast
  · rfl
  · obtain ⟨front, rfl⟩ := List.getLast?_eq_some_iff.1 hlast
    have hend : Place.code.after (front ++ ['\n']) = (Place.code.after front).next '\n' := by simp
    rcases Place.next_lf (Place.code.after front) with hplace | hplace | hplace
    · rw [hend, hplace]
      rfl
    · have hopen : (Place.code.after (front ++ ['\n'])).inBlockComment := by
        rw [hend, hplace]
        rfl
      rcases Place.of_inBlockComment_after hopen with hcode | ⟨hcode, -⟩ | ⟨a, r, hmark⟩
      · cases hcode
      · cases hcode
      · exact absurd ⟨a, r, by simp [hmark]⟩ hblock
    · rcases Place.of_after_eq_raw (hend.trans hplace) with hcode | hmem
      · cases hcode
      · exact absurd hmem hraw

/-- In a text without comments over lines and raw texts the search is right. -/
theorem definesMain_of_hasMain {text : String} (h : hasMain text) (hraw : '\x60' ∉ text.toList)
    (hblock : ¬['/', '*'] <:+: text.toList) : DefinesMain text.toList := by
  obtain ⟨before, head, after, htext, hbefore, hhead⟩ := hasMain_iff.1 h
  rw [htext] at hraw hblock
  refine definesMain_iff.2 ⟨before, head, after, htext, hbefore, hhead,
    isCode_of_endsLine hbefore (fun hmem => hraw (by simp [hmem])) fun hmark => hblock ?_⟩
  exact hmark.trans ⟨[], head ++ after, by simp⟩

end Go

namespace Cell

variable {settings : Settings}

/-- The body section of a program that is to have a `main` defines one, unless the only
ones that the search finds after the clause stand in comments or raw texts; this takes a
mark of either of them. -/
theorem definesMain_body_iff {cell : Cell} {p : Program} (hmain : cell.entryPoint = true)
    (h : cell.assemble settings = .ok p) :
    (Go.DefinesMain p.body.toList ↔ Go.hasMain (Go.splitClause cell.body).2 = false ∨
      Go.DefinesMain (Go.splitClause cell.body).2.toList) ∧
    ('\x60' ∉ (Go.splitClause cell.body).2.toList →
      ¬['/', '*'] <:+: (Go.splitClause cell.body).2.toList → Go.DefinesMain p.body.toList) := by
  obtain ⟨-, -, -, -, -, hbody⟩ := assemble_eq_ok_iff.1 h
  generalize hrest : (Go.splitClause cell.body).2 = rest
  have hbody : p.body = if Go.hasMain rest then String.ofList (trimBreaks rest.toList)
      else Go.wrapMain rest := by
    rw [hbody, bodySection, hrest, hmain]
    cases Go.hasMain rest <;> rfl
  have hiff : Go.DefinesMain p.body.toList ↔ Go.hasMain rest = false ∨
      Go.DefinesMain rest.toList := by
    cases hsearch : Go.hasMain rest with
    | false =>
        rw [hsearch, if_neg Bool.false_ne_true] at hbody
        rw [hbody]
        exact iff_of_true (Go.definesMain_wrapMain rest) (.inl rfl)
    | true =>
        rw [hsearch, if_pos rfl] at hbody
        rw [hbody, String.toList_ofList, Go.definesMain_trimBreaks_iff]
        exact ⟨.inr, fun hdefines => hdefines.resolve_left (by simp)⟩
  refine ⟨hiff, fun hraw hblock => hiff.2 ?_⟩
  rw [or_iff_not_imp_left, Bool.not_eq_false]
  exact fun hsearch => Go.definesMain_of_hasMain hsearch hraw hblock

/-- The first `main` of this body stands in a comment, the second in code. -/
def twoMainsCell : Cell := { body := "/*\nfunc main() \x7b\x7d\n*/\nfunc main() \x7b\x7d\n" }

theorem definesMain_body_iff_twoMainsCell :
    ∃ p, twoMainsCell.assemble {} = .ok p ∧ Go.DefinesMain p.body.toList := by
  obtain ⟨p, hp⟩ := exists_eq_ok_of_isSome
    (show (twoMainsCell.assemble {}).toOption.isSome by decide)
  exact ⟨p, hp, (definesMain_body_iff (by decide) hp).1.2 (.inr (by decide))⟩

/-- The only `main` of this body stands in a comment. -/
def commentedMainCell : Cell := { body := "/*\nfunc main() \x7b\x7d\n*/\nx := 1" }

/-- Not every program that is asked to have a `main` has one in its code. -/
theorem not_forall_definesMain_body :
    ¬ ∀ (settings : Settings) (cell : Cell) (p : Program), cell.entryPoint = true →
      cell.assemble settings = .ok p → Go.DefinesMain p.body.toList := by
  intro h
  obtain ⟨p, hp⟩ := exists_eq_ok_of_isSome
    (show (commentedMainCell.assemble {}).toOption.isSome by decide)
  have hdefines := h {} commentedMainCell p rfl hp
  obtain ⟨-, -, -, -, -, hbody⟩ := assemble_eq_ok_iff.1 hp
  rw [hbody] at hdefines
  exact absurd hdefines (by decide)

end Cell

end GoCell
