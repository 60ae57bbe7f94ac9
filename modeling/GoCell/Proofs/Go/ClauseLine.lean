import GoCell.Proofs.Go.ClauseComment
import GoCell.Proofs.Text.Printed

/-!
The line of a package clause. Before the clause its line has only blanks, or the end of a
comment and blanks; so cutting the line after its last comment mark leaves the clause, unless
a mark stands behind the name.
-/

namespace GoCell.Go

open Text (isBlank trim dropEndWhile afterLast?)

/-! ### Before the clause -/

/-- How a text before code ends: only blanks stand after its start, a line break or the end of
a comment. Inside of a comment the start does not count. -/
def EndsLead (m : Lead) (lead : List Char) : Prop :=
  ∃ before blanks, lead = before ++ blanks ∧ (∀ c ∈ blanks, isBlank c) ∧
    (m = .between ∧ before = [] ∨ ∃ x, before = x ++ ['\n'] ∨ before = x ++ ['*', '/'])

theorem EndsLead.cons {m m' : Lead} {lead : List Char} (h : EndsLead m lead) (hm : m ≠ .between)
    (c : Char) : EndsLead m' (c :: lead) := by
  obtain ⟨before, blanks, rfl, hblanks, hend⟩ := h
  refine ⟨c :: before, blanks, rfl, hblanks, .inr ?_⟩
  rcases hend with ⟨hbetween, -⟩ | ⟨x, rfl | rfl⟩
  · exact absurd hbetween hm
  · exact ⟨c :: x, .inl rfl⟩
  · exact ⟨c :: x, .inr rfl⟩

theorem EndsLead.cons_blank {lead : List Char} (h : EndsLead .between lead) {c : Char}
    (hc : isBlank c) : EndsLead .between (c :: lead) := by
  obtain ⟨before, blanks, rfl, hblanks, hend⟩ := h
  rcases hend with ⟨-, rfl⟩ | ⟨x, rfl | rfl⟩
  · exact ⟨[], c :: blanks, rfl, List.forall_mem_cons.2 ⟨hc, hblanks⟩, .inl ⟨rfl, rfl⟩⟩
  · exact ⟨c :: (x ++ ['\n']), blanks, rfl, hblanks, .inr ⟨c :: x, .inl rfl⟩⟩
  · exact ⟨c :: (x ++ ['*', '/']), blanks, rfl, hblanks, .inr ⟨c :: x, .inr rfl⟩⟩

/-- A comment ends with its line or with its mark. -/
theorem EndsLead.append {m : Lead} {lead mark : List Char} (h : EndsLead .between lead)
    (hmark : mark = ['\n'] ∨ mark = ['*', '/']) : EndsLead m (mark ++ lead) := by
  obtain ⟨before, blanks, rfl, hblanks, hend⟩ := h
  refine ⟨mark ++ before, blanks, by rw [List.append_assoc], hblanks, .inr ?_⟩
  rcases hend with ⟨-, rfl⟩ | ⟨x, rfl | rfl⟩
  · exact ⟨[], by simpa using hmark⟩
  · exact ⟨mark ++ x, .inl (List.append_assoc _ _ _).symm⟩
  · exact ⟨mark ++ x, .inr (List.append_assoc _ _ _).symm⟩

theorem Passes.endsLead {m : Lead} {lead : List Char} (h : Passes m lead) : EndsLead m lead := by
  induction h with
  | nil => exact ⟨[], [], rfl, by simp, .inl ⟨rfl, rfl⟩⟩
  | blank hc _ ih => exact ih.cons_blank hc
  | openLine _ ih =>
      have hcomment : EndsLead .line ('/' :: _) := ih.cons (by simp) '/'
      exact hcomment.cons (by simp) '/'
  | openBlock _ ih =>
      have hcomment : EndsLead .block ('*' :: _) := ih.cons (by simp) '*'
      exact hcomment.cons (by simp) '/'
  | closeLine _ ih => exact ih.append (.inl rfl)
  | line _ _ ih => exact ih.cons (by simp) _
  | closeBlock _ ih => exact ih.append (.inr rfl)
  | block _ _ ih => exact ih.cons (by simp) _

/-! ### The last line -/

/-- Whether what follows is on a line of its own: it stands at the start of the text or after a
line break. -/
def EndsBefore (before : List Char) : Prop := before = [] ∨ ∃ x, before = x ++ ['\n']

theorem EndsBefore.append {before : List Char} (h : EndsBefore before) {x : List Char}
    (hx : before = [] → EndsBefore x) : EndsBefore (x ++ before) := by
  rcases h with rfl | ⟨y, rfl⟩
  · rw [List.append_nil]
    exact hx rfl
  · exact .inr ⟨x ++ y, (List.append_assoc _ _ _).symm⟩

theorem exists_lastLine (l : List Char) :
    ∃ before last, l = before ++ last ∧ EndsBefore before ∧ '\n' ∉ last := by
  induction l using Text.splitInduction '\n' with
  | last x hx => exact ⟨[], x, rfl, .inl rfl, hx⟩
  | piece x r _ ih =>
      obtain ⟨before, last, rfl, hbefore, hlast⟩ := ih
      refine ⟨x ++ ['\n'] ++ before, last, by simp, hbefore.append fun _ => ?_, hlast⟩
      exact .inr ⟨x, rfl⟩

theorem getLast?_lines {before last : List Char} (hbefore : EndsBefore before)
    (hlf : '\n' ∉ last) (hne : last ≠ []) :
    (Text.lines (before ++ last)).getLast? = some last := by
  have hlines := Text.lines_of_lf_not_mem hlf hne
  rcases hbefore with rfl | ⟨x, rfl⟩
  · rw [List.nil_append, hlines, List.getLast?_singleton]
  · rw [List.append_assoc, List.singleton_append]
    induction x using Text.splitInduction '\n' with
    | last x hx =>
        rw [Text.lines_append_lf hx, hlines]
        rfl
    | piece x r hx ih =>
        rw [List.append_assoc, List.cons_append, Text.lines_append_lf hx, List.getLast?_cons, ih]
        rfl

/-- What a line shows after the last comment that ends on it. -/
def uncommented (line : List Char) : List Char := trim ((afterLast? ['*', '/'] line).getD line)

theorem not_mem_mark_of_isBlank {c : Char} (h : isBlank c) : c ∉ ['*', '/'] := by
  intro hmem
  simp only [List.mem_cons, List.not_mem_nil, or_false] at hmem
  rcases hmem with rfl | rfl <;> cases h

theorem afterLast?_of_blank {blanks : List Char} (h : ∀ c ∈ blanks, isBlank c) :
    afterLast? ['*', '/'] blanks = none :=
  Text.afterLast?_of_not_mem fun hmem => not_mem_mark_of_isBlank (h _ hmem) List.mem_cons_self

theorem afterLast?_append_mark (x : List Char) :
    afterLast? ['*', '/'] (x ++ ['*', '/']) = some [] := by
  induction x with
  | nil => rfl
  | cons c x ih => rw [List.cons_append, afterLast?, ih]

/-- On the line of the code there is nothing but blanks before it, apart from comments. -/
theorem EndsLead.exists_lastLine {lead : List Char} (h : EndsLead .between lead) :
    ∃ before last, lead = before ++ last ∧ EndsBefore before ∧ '\n' ∉ last ∧
      ∀ c ∈ (afterLast? ['*', '/'] last).getD last, isBlank c := by
  obtain ⟨x, blanks, rfl, hblanks, hend⟩ := h
  obtain ⟨before, last, rfl, hbefore, hlf⟩ := Go.exists_lastLine blanks
  have hlast : ∀ c ∈ last, isBlank c := fun c hc => hblanks c (List.mem_append_right _ hc)
  have hstart : EndsBefore x ∨ ∃ y, x = y ++ ['*', '/'] := by
    rcases hend with ⟨-, rfl⟩ | ⟨y, rfl | rfl⟩
    · exact .inl (.inl rfl)
    · exact .inl (.inr ⟨y, rfl⟩)
    · exact .inr ⟨y, rfl⟩
  by_cases hmark : before = [] ∧ ∃ y, x = y ++ ['*', '/']
  · -- the comment ends on the line of the code
    obtain ⟨rfl, y, rfl⟩ := hmark
    obtain ⟨before, line, rfl, hbefore, hline⟩ := Go.exists_lastLine y
    refine ⟨before, line ++ ['*', '/'] ++ last, by simp, hbefore, ?_, ?_⟩
    · simp [hline, hlf]
    · rw [Text.afterLast?_append_of_forall fun c hc => not_mem_mark_of_isBlank (hlast c hc),
        afterLast?_append_mark]
      exact hlast
  · refine ⟨x ++ before, last, by simp, hbefore.append fun hnil => ?_, hlf, ?_⟩
    · exact hstart.resolve_right fun hy => hmark ⟨hnil, hy⟩
    · rw [afterLast?_of_blank hlast]
      exact hlast

theorem trim_append_left {blanks : List Char} (h : ∀ c ∈ blanks, isBlank c) (l : List Char) :
    trim (blanks ++ l) = trim l := by
  rw [trim, List.dropWhile_append_of_pos h, trim]

theorem uncommented_append {last : List Char}
    (h : ∀ c ∈ (afterLast? ['*', '/'] last).getD last, isBlank c) {c : Char} (hc : c ∉ ['*', '/'])
    (r : List Char) : uncommented (last ++ c :: r) = uncommented (c :: r) := by
  have hstar : '*' ≠ c := (List.ne_of_not_mem_cons hc).symm
  rw [uncommented, uncommented, Text.afterLast?_append_cons hc, Text.afterLast?_cons_of_ne hstar]
  cases afterLast? ['*', '/'] r with
  | some rest => rfl
  | none =>
      rw [Option.none_or, Option.getD_none]
      cases hlast : afterLast? ['*', '/'] last <;>
        · rw [hlast] at h
          exact trim_append_left h (c :: r)

/-- The blanks by their code points. -/
def blankPoints : List Nat :=
  [9, 10, 11, 12, 13, 0x20, 0x85, 0xa0, 0x1680, 0x2000, 0x2001, 0x2002, 0x2003, 0x2004, 0x2005,
    0x2006, 0x2007, 0x2008, 0x2009, 0x200a, 0x2028, 0x2029, 0x202f, 0x205f, 0x3000]

theorem mem_blankPoints_of_isBlank {c : Char} (h : isBlank c) : c.toNat ∈ blankPoints := by
  simp only [isBlank, Bool.or_eq_true, Bool.and_eq_true, decide_eq_true_eq, beq_iff_eq] at h
  simp only [blankPoints, List.mem_cons, List.not_mem_nil, or_false]
  omega

theorem isBlank_of_isIdentChar {c : Char} (h : isIdentChar c) : isBlank c = false := by
  by_contra hblank
  rw [Bool.not_eq_false] at hblank
  have hnone : ∀ n ∈ blankPoints, isIdentChar (Char.ofNat n) = false := by decide +kernel
  have hc := hnone c.toNat (mem_blankPoints_of_isBlank hblank)
  rw [Char.ofNat_toNat, h] at hc
  cases hc

theorem exists_append_trim (l : List Char) :
    ∃ before after, l = before ++ (trim l ++ after) ∧ (∀ c ∈ before, isBlank c) ∧
      ∀ c ∈ after, isBlank c := by
  obtain ⟨after, hafter, hblanks⟩ := Text.exists_dropEndWhile_append isBlank (l.dropWhile isBlank)
  refine ⟨l.takeWhile isBlank, after, ?_, fun c hc => List.mem_takeWhile_imp hc, hblanks⟩
  rw [trim, ← hafter, List.takeWhile_append_dropWhile]

/-- A line may be trimmed before it is cut. -/
theorem uncommented_eq_elim_trim (line : List Char) :
    uncommented line = (afterLast? ['*', '/'] (trim line)).elim (trim line) trim := by
  obtain ⟨before, after, hline, hbefore, hafter⟩ := exists_append_trim line
  have hcut : afterLast? ['*', '/'] line =
      (afterLast? ['*', '/'] (trim line)).map (· ++ after) := by
    have hstar : '*' ∉ before := fun hmem =>
      not_mem_mark_of_isBlank (hbefore _ hmem) List.mem_cons_self
    calc afterLast? ['*', '/'] line
        = afterLast? ['*', '/'] (before ++ (trim line ++ after)) := congrArg _ hline
      _ = afterLast? ['*', '/'] (trim line ++ after) := Text.afterLast?_append_of_not_mem hstar _
      _ = (afterLast? ['*', '/'] (trim line)).map (· ++ after) :=
          Text.afterLast?_append_of_forall
            (fun c hc => not_mem_mark_of_isBlank (hafter c hc)) (trim line)
  rw [uncommented, hcut]
  cases afterLast? ['*', '/'] (trim line) with
  | none => rfl
  | some rest => exact Text.trim_append_of_blank hafter rest

namespace ClauseParts

variable {clause : List Char} (parts : ClauseParts clause)

theorem exists_name_concat : ∃ x c, parts.name = x ++ [c] ∧ isBlank c = false := by
  rcases List.eq_nil_or_concat' parts.name with hnil | ⟨x, c, hname⟩
  · have hshape := parts.name_shape
    rw [hnil] at hshape
    cases hshape
  · refine ⟨x, c, hname, isBlank_of_isIdentChar (isIdentChar_of_mem_shape parts.name_shape ?_)⟩
    simp [hname]

theorem star_not_mem : '*' ∉ "package".toList ++ parts.gap ++ parts.name := by
  simp only [List.mem_append, not_or]
  refine ⟨⟨by decide, fun hmem => ?_⟩, fun hmem => ?_⟩
  · rcases parts.gap_blank _ hmem with h | h <;> exact absurd h (by decide)
  · exact absurd (isIdentChar_of_mem_shape parts.name_shape hmem) (by decide)

/-- The code of a clause is shown up to the end of what follows the name, unless a comment mark
stands there; then what follows the last one is shown. -/
theorem uncommented_code :
    uncommented ("package".toList ++ parts.gap ++ parts.name ++ parts.trail) =
      (afterLast? ['*', '/'] parts.trail).elim
        ("package".toList ++ parts.gap ++ parts.name ++ dropEndWhile isBlank parts.trail) trim := by
  rw [uncommented, Text.afterLast?_append_of_not_mem parts.star_not_mem]
  cases afterLast? ['*', '/'] parts.trail with
  | some rest => rfl
  | none =>
      obtain ⟨x, c, hname, hc⟩ := parts.exists_name_concat
      have hdrop : ∀ r, ("package".toList ++ r).dropWhile isBlank = "package".toList ++ r :=
        fun r => List.dropWhile_cons_of_neg (by decide)
      have hend := Text.dropEndWhile_append_cons_of_neg ("package".toList ++ parts.gap ++ x)
        parts.trail hc
      simp only [List.append_assoc] at hend
      rw [Option.getD_none, Option.elim_none, trim, hname]
      simp only [List.append_assoc, List.singleton_append, hdrop]
      exact hend

theorem lf_not_mem_code :
    '\n' ∉ "package".toList ++ parts.gap ++ parts.name ++ parts.trail := by
  simp only [List.mem_append, not_or]
  refine ⟨⟨⟨by decide, lf_not_mem_gap parts.gap_blank⟩, fun hmem => ?_⟩, parts.trail_line⟩
  exact absurd (isIdentChar_of_mem_shape parts.name_shape hmem) (by decide)

/-- The last line of a clause shows the same as its code, whatever stands before the code. -/
theorem uncommented_getLast? (hpasses : Passes .between parts.lead) :
    uncommented ((Text.lines clause).getLast?.getD []) =
      uncommented ("package".toList ++ parts.gap ++ parts.name ++ parts.trail) := by
  obtain ⟨before, last, hlead, hbefore, hlf, hlast⟩ := hpasses.endsLead.exists_lastLine
  have hclause : before ++ (last ++ ("package".toList ++ parts.gap ++ parts.name ++ parts.trail)) =
      clause := by
    rw [← List.append_assoc, ← hlead]
    exact parts.clause_eq.symm
  have hline : '\n' ∉ last ++ ("package".toList ++ parts.gap ++ parts.name ++ parts.trail) := by
    rw [List.mem_append, not_or]
    exact ⟨hlf, parts.lf_not_mem_code⟩
  have hlast? := getLast?_lines hbefore hline (by simp)
  rw [hclause] at hlast?
  rw [hlast?, Option.getD_some]
  exact uncommented_append hlast (by decide) _

end ClauseParts

end GoCell.Go
