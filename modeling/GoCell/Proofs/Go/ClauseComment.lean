import GoCell.Proofs.Go.Place
import GoCell.Proofs.Program.BodyText

/-!
Comments and the package clause. Every comment before the clause is closed, but its line is
cut off whole, with whatever follows the name; so a comment that begins there and goes on
over lines is still open after the clause, and the rest of the body begins inside of it.
-/

namespace GoCell.Go

/-- The parts of a text that ends in a package clause: what stands before the code, the
gap and the name of the clause, and what follows the name on its line. -/
structure ClauseParts (clause : List Char) where
  lead : List Char
  gap : List Char
  name : List Char
  trail : List Char
  clause_eq : clause = lead ++ ("package".toList ++ gap ++ name ++ trail)
  after_lead : Place.code.after lead = .code
  gap_ne_nil : gap ≠ []
  gap_blank : ∀ c ∈ gap, c = ' ' ∨ c = '\t'
  name_shape : isIdentShape name = true
  name_maximal : ∀ c ∈ trail.head?, isIdentChar c = false
  trail_line : '\n' ∉ trail

theorem exists_clauseParts {clause : List Char} (h : EndsInClause clause) :
    ∃ parts : ClauseParts clause, Passes .between parts.lead ∧
      skipLead .between clause = "package".toList ++ parts.gap ++ parts.name ++ parts.trail := by
  obtain ⟨lead, code, rfl, hskip, ⟨gap, c, r, hcode, hne, hgap, hc⟩, hlf, -⟩ := h
  have hstart : isIdentStart c = true := isIdentStart_iff.2 hc
  obtain ⟨lead', hlead, hpasses⟩ := exists_passes (m := .between) (l := lead ++ code)
    (by rw [hskip, hcode]; simp)
  rw [hskip] at hlead
  obtain rfl := List.append_cancel_right hlead
  have hname := List.takeWhile_append_dropWhile (p := isIdentChar) (l := c :: r)
  have hparts : code = "package".toList ++ gap ++ (c :: r).takeWhile isIdentChar ++
      (c :: r).dropWhile isIdentChar := by
    rw [List.append_assoc _ _ (List.dropWhile _ _), hname, hcode]
  have hchar : isIdentChar c = true := by simp [isIdentChar, hstart]
  refine ⟨⟨lead, gap, (c :: r).takeWhile isIdentChar, (c :: r).dropWhile isIdentChar,
    by rw [← hparts], hpasses.after_eq_code, hne, hgap, ?_, ?_, ?_⟩, hpasses,
    hskip.trans hparts⟩
  · rw [List.takeWhile_cons_of_pos hchar, isIdentShape, hstart, Bool.true_and]
    exact List.all_takeWhile
  · intro d hd
    have hhead := List.head?_dropWhile_not isIdentChar (c :: r)
    rw [show ((c :: r).dropWhile isIdentChar).head? = some d from hd] at hhead
    exact hhead
  · intro hmem
    refine hlf ?_
    rw [hcode]
    exact List.mem_append_right _ ((List.dropWhile_suffix _).subset hmem)

theorem nonempty_clauseParts {clause : List Char} (h : EndsInClause clause) :
    Nonempty (ClauseParts clause) := by
  obtain ⟨parts, -⟩ := exists_clauseParts h
  exact ⟨parts⟩

namespace ClauseParts

variable {clause : List Char} (parts : ClauseParts clause)

/-- No comment or text begins before the end of the name. -/
theorem after_clause : Place.code.after clause = Place.code.after parts.trail := by
  have hgap : ∀ c ∈ parts.gap, Place.opened c = .code := by
    intro c hc
    rcases parts.gap_blank c hc with rfl | rfl <;> rfl
  have hname : ∀ c ∈ parts.name, Place.opened c = .code := fun c hc =>
    Place.opened_of_isIdentChar (isIdentChar_of_mem_shape parts.name_shape hc)
  have hword : Place.code.after "package".toList = .code := rfl
  refine (congrArg Place.code.after parts.clause_eq).trans ?_
  simp only [Place.after_append, parts.after_lead, hword, Place.after_code_of_opened hgap,
    Place.after_code_of_opened hname]

/-- A comment that is open after a clause was begun behind its name, and is still open
after the end of the line. -/
theorem inBlockComment_after {breaks : List Char} (h : ∀ c ∈ breaks, Text.isLineBreak c) :
    (Place.code.after (clause ++ breaks)).inBlockComment =
      (Place.code.after parts.trail).inBlockComment := by
  rw [Place.after_append, Place.inBlockComment_after h, parts.after_clause]

end ClauseParts

/-- After a clause a comment is open exactly where what follows the name on its line leaves
one open, and then the rest of the body begins inside of it; for this a comment mark has to
stand behind the name. -/
theorem inBlockComment_after_clause {body clause rest : String}
    (h : splitClause body = (some clause, rest)) :
    ∃ (parts : ClauseParts clause.toList) (lineEnd : List Char),
      body.toList = clause.toList ++ lineEnd ++ rest.toList ∧ Text.LineEnd lineEnd ∧
      (∀ breaks : List Char, (∀ c ∈ breaks, Text.isLineBreak c) →
        (Place.code.after (clause.toList ++ breaks)).inBlockComment =
          (Place.code.after parts.trail).inBlockComment) ∧
      ((Place.code.after parts.trail).inBlockComment →
        ∃ a r, parts.trail = a ++ '/' :: '*' :: r) := by
  have hfst : (splitClause body).1 = some clause := congrArg Prod.fst h
  have hclause : HasClause body.toList := by
    by_contra hnot
    rw [fst_splitClause_eq_none_iff.2 hnot] at hfst
    cases hfst
  obtain ⟨clause', rest', lineEnd, hsplit, hbody, hend⟩ := exists_splitClause_eq hclause
  rw [h] at hsplit
  obtain ⟨rfl, rfl⟩ : clause = clause' ∧ rest = rest' := by simpa using hsplit
  obtain ⟨parts⟩ := nonempty_clauseParts (endsInClause_of_splitClause hfst)
  refine ⟨parts, lineEnd, hbody, hend, fun breaks => parts.inBlockComment_after, fun hopen => ?_⟩
  rcases Place.of_inBlockComment_after hopen with hcode | ⟨hcode, -⟩ | hmark
  · cases hcode
  · cases hcode
  · exact hmark

/-- A clause with a comment behind its name that goes on in the next line. -/
def commentedClause : String := "package p /* a\nb */\nx := 1\n"

theorem splitClause_commentedClause :
    splitClause commentedClause = (some "package p /* a", "b */\nx := 1\n") := by
  decide

/-- The rest of this body begins inside of the comment. -/
theorem inBlockComment_after_clause_commentedClause :
    ∃ clause rest, splitClause commentedClause = (some clause, rest) ∧
      ∃ lineEnd, commentedClause.toList = clause.toList ++ lineEnd ++ rest.toList ∧
        (Place.code.after (clause.toList ++ lineEnd)).inBlockComment = true := by
  obtain ⟨parts, lineEnd, hbody, hend, hsame, -⟩ :=
    inBlockComment_after_clause splitClause_commentedClause
  refine ⟨_, _, splitClause_commentedClause, lineEnd, hbody, ?_⟩
  rw [hsame lineEnd hend.breaks, ← hsame [] (by simp)]
  decide

/-- Not every clause that is cut off leaves its comments closed. -/
theorem not_forall_closed_after_clause :
    ¬ ∀ body clause rest : String, splitClause body = (some clause, rest) →
      (Place.code.after clause.toList).inBlockComment = false := by
  intro h
  have hclosed := h _ _ _ splitClause_commentedClause
  exact absurd hclosed (by decide)

end GoCell.Go
