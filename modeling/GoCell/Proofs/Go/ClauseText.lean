import GoCell.Proofs.Go.ClauseScan
import GoCell.Proofs.Go.OneLine

/-!
A text that ends in a package clause is cut off again from whatever follows it on
new lines. What a scan passes before the clause does not depend on what comes after.
-/

namespace GoCell.Go

open Text (trimBreaks)

/-- A text whose code is a package clause, at its end and on one line. -/
def EndsInClause (text : List Char) : Prop :=
  ∃ lead code, text = lead ++ code ∧ skipLead .between text = code ∧ StartsClause code ∧
    '\n' ∉ code ∧ trimBreaks code = code

theorem skipLead_between_cons {c : Char} (hblank : Text.isBlank c = false) (hslash : c ≠ '/')
    (r : List Char) : skipLead .between (c :: r) = c :: r := by
  cases r <;> simp [skipLead, hblank, hslash]

/-- Inside of a comment at least one character is passed. -/
theorem length_skipLead_lt {m : Lead} (hm : m ≠ .between) {c : Char} (r : List Char) :
    (skipLead m (c :: r)).length < (c :: r).length := by
  have hle (m : Lead) (l : List Char) : (skipLead m l).length ≤ l.length :=
    (skipLead_suffix m l).length_le
  cases m with
  | between => exact absurd rfl hm
  | line =>
      rw [skipLead, List.length_cons]
      split
      · exact Nat.lt_succ_of_le (hle _ _)
      · exact Nat.lt_succ_of_le (hle _ _)
  | block =>
      cases r with
      | nil => simp [skipLead]
      | cons d r =>
          rw [skipLead, List.length_cons, List.length_cons]
          split
          · have := hle .between r
            omega
          · have := hle .block (d :: r)
            rw [List.length_cons] at this
            omega

/-- A scan that stops at a character stops there whatever follows it. -/
theorem skipLead_append_cons {c : Char} (hblank : Text.isBlank c = false) (hslash : c ≠ '/')
    {m : Lead} {lead r : List Char} (h : skipLead m (lead ++ c :: r) = c :: r)
    (r' : List Char) : skipLead m (lead ++ c :: r') = c :: r' := by
  have hslash' (a : Char) : ¬ (a = '*' ∧ c = '/') := fun h => hslash h.2
  -- Where a step of the scan looks at `c`, either it stops there or it would have passed
  -- `c` in `h` as well, and then too little would be left.
  induction m, lead using skipLead.induct with
  | case1 m =>
      cases m with
      | between => exact skipLead_between_cons hblank hslash r'
      | line => exact absurd (congrArg List.length h) (length_skipLead_lt (by simp) r).ne
      | block => exact absurd (congrArg List.length h) (length_skipLead_lt (by simp) r).ne
  | case2 a ha =>
      exact (skipLead_between_blank ha _).trans (skipLead_between_cons hblank hslash r')
  | case3 a ha =>
      have hle := (skipLead_suffix .block r).length_le
      simp only [List.singleton_append, skipLead, hslash, and_false, if_false, ha] at h
      split at h
      · rw [h, List.length_cons] at hle
        omega
      · simpa using congrArg List.length h
  | case4 a b l hmark ih =>
      simp only [List.cons_append, skipLead, hmark, and_self, if_true] at h ⊢
      exact ih h
  | case5 a b l hline hmark ih =>
      simp only [List.cons_append, skipLead, hmark] at h ⊢
      exact ih h
  | case6 a b l hline hmark ha ih =>
      rw [List.cons_append, skipLead_between_blank ha] at h ⊢
      exact ih h
  | case7 a b l hline hmark ha =>
      simp only [List.cons_append, skipLead, hline, hmark, ha, if_false] at h
      have := congrArg List.length h
      simp at this
      omega
  | case8 l ih =>
      simp only [List.cons_append, skipLead, if_true] at h ⊢
      exact ih h
  | case9 a l ha ih =>
      simp only [List.cons_append, skipLead, ha, if_false] at h ⊢
      exact ih h
  | case10 a =>
      simp only [List.singleton_append, skipLead, hslash', if_false] at h
      exact absurd (congrArg List.length h) (length_skipLead_lt (by simp) r).ne
  | case11 a b l hmark ih =>
      simp only [List.cons_append, skipLead, hmark, and_self, if_true] at h ⊢
      exact ih h
  | case12 a b l hmark ih =>
      simp only [List.cons_append, skipLead, hmark, if_false] at h ⊢
      exact ih h

theorem startsClause_cons {code : List Char} (h : StartsClause code) : ∃ r, code = 'p' :: r := by
  obtain ⟨gap, c, r, rfl, -⟩ := h
  exact ⟨_, rfl⟩

/-- The first line of a clause is one, without the line breaks at its end. -/
theorem StartsClause.firstLine {code : List Char} (h : StartsClause code) :
    StartsClause (trimBreaks (code.takeWhile (· ≠ '\n'))) := by
  obtain ⟨gap, c, r, rfl, hne, hgap, hc⟩ := h
  have hbreak : Text.isLineBreak c = false := by
    by_contra h
    rcases Text.isLineBreak_iff.1 (by simpa using h) with rfl | rfl <;>
      rcases hc with hc | hc <;> exact absurd hc (by decide)
  have hline : ("package".toList ++ gap ++ c :: r).takeWhile (· ≠ '\n') =
      "package".toList ++ gap ++ c :: r.takeWhile (· ≠ '\n') := by
    have hhead := Text.ne_lf_of_not_mem (lf_not_mem_clauseHead hgap hc)
    rw [← List.singleton_append, ← List.append_assoc, List.takeWhile_append_of_pos hhead,
      List.append_assoc, List.singleton_append]
  refine ⟨gap, c, trimBreaks (r.takeWhile (· ≠ '\n')), ?_, hne, hgap, hc⟩
  rw [hline]
  exact Text.dropEndWhile_append_cons_of_neg _ _ hbreak

theorem startsClause_append {code : List Char} (h : StartsClause code) (r : List Char) :
    StartsClause (code ++ r) := by
  obtain ⟨gap, c, s, rfl, hne, hgap, hc⟩ := h
  exact ⟨gap, c, s ++ r, by simp, hne, hgap, hc⟩

/-- The clause that is cut off a body. -/
theorem endsInClause_of_splitClause {body clause : String}
    (h : (splitClause body).1 = some clause) : EndsInClause clause.toList := by
  obtain ⟨lead, hbody⟩ := skipLead_suffix .between body.toList
  by_cases hstarts : StartsClause (skipLead .between body.toList)
  · -- The lead is the same for the clause alone, and so is the place where it ends.
    generalize hcode : skipLead .between body.toList = code at hbody hstarts
    rw [← hbody] at hcode
    have hsome := splitClause_eq_some hcode hstarts
    rw [hbody, String.ofList_toList] at hsome
    rw [hsome] at h
    obtain rfl := (Option.some.inj h).symm
    have hfirst := hstarts.firstLine
    obtain ⟨r, rfl⟩ := startsClause_cons hstarts
    obtain ⟨r', hr'⟩ := startsClause_cons hfirst
    refine ⟨lead, _, String.toList_ofList, ?_, hfirst, ?_, Text.trimBreaks_trimBreaks _⟩
    · rw [String.toList_ofList, hr']
      exact skipLead_append_cons (by decide) (by decide) hcode r'
    · intro hmem
      have := List.mem_takeWhile_imp ((Text.trimBreaks_isPrefix _).subset hmem)
      simp at this
  · rw [splitClause_eq_none hstarts] at h
    cases h

/-- The clause that is written for a name. -/
theorem endsInClause_package {name : String} (h : isIdentifier name) :
    EndsInClause ("package " ++ name).toList := by
  have hone := oneLine_of_isIdentifier h
  have hline : Text.OneLine ("package " ++ name).toList := by
    rw [String.toList_append, Text.oneLine_append]
    exact ⟨by decide, hone⟩
  refine ⟨[], ("package " ++ name).toList, rfl, ?_, ?_, hline.lf_not_mem, hline.trimBreaks_eq⟩
  · rw [String.toList_append]
    exact skipLead_between_cons (c := 'p') (by decide) (by decide) _
  · rw [isIdentifier, Bool.and_eq_true] at h
    cases hname : name.toList with
    | nil => simp [hname, isIdentShape] at h
    | cons c r =>
        rw [hname, isIdentShape, Bool.and_eq_true] at h
        refine ⟨[' '], c, r, ?_, by simp, by simp, isIdentStart_iff.1 h.1.1⟩
        rw [String.toList_append, hname]
        rfl

/-- Cutting gives back a clause and what was put after it. -/
theorem splitClause_append {clause : String} (h : EndsInClause clause.toList) (rest : String) :
    splitClause (clause ++ "\n" ++ rest) = (some clause, rest) := by
  obtain ⟨lead, code, hclause, hskip, hstarts, hlf, htrim⟩ := h
  obtain ⟨r, rfl⟩ := startsClause_cons hstarts
  rw [hclause] at hskip
  have hskip' := skipLead_append_cons (by decide) (by decide) hskip (r ++ '\n' :: rest.toList)
  have hsplit := splitClause_eq_some hskip' (startsClause_append hstarts ('\n' :: rest.toList))
  rw [← List.cons_append, Text.takeWhile_append_lf hlf, Text.dropWhile_append_lf hlf, htrim,
    List.tail_cons, ← hclause, String.ofList_toList, String.ofList_toList] at hsplit
  rw [← hsplit]
  congr 1
  apply String.toList_injective
  simp [hclause]

end GoCell.Go
