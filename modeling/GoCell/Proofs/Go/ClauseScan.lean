import GoCell.Go.PackageClause
import GoCell.Proofs.Text.Line
import GoCell.Proofs.Text.Search

/-!
One scan over a whole text for the code that stands after blanks and comments,
and the proof that going through the text line by line, with a flag for an open
comment, comes to the same code. Comment marks never cross the end of a line.
-/

namespace GoCell.Go

open Text (FirstLine)

/-- Where a scan is: between comments, in one that ends with the line, or in one
that ends with a mark. -/
inductive Lead
  | between
  | line
  | block

/-- The text from its first character on that is neither blank nor in a comment. -/
def skipLead : Lead → List Char → List Char
  | _, [] => []
  | .between, [c] => if Text.isBlank c then [] else [c]
  | .between, c :: d :: r =>
    if c = '/' ∧ d = '/' then skipLead .line r
    else if c = '/' ∧ d = '*' then skipLead .block r
    else if Text.isBlank c then skipLead .between (d :: r)
    else c :: d :: r
  | .line, c :: r => if c = '\n' then skipLead .between r else skipLead .line r
  | .block, [_] => []
  | .block, c :: d :: r =>
    if c = '*' ∧ d = '/' then skipLead .between r else skipLead .block (d :: r)

/-- Whether code starts with `package`, at least one space or tab, and a letter or
an underscore. -/
def StartsClause (code : List Char) : Prop :=
  ∃ (gap : List Char) (c : Char) (r : List Char),
    code = "package".toList ++ gap ++ c :: r ∧ gap ≠ [] ∧ (∀ g ∈ gap, g = ' ' ∨ g = '\t') ∧
      (c = '_' ∨ Text.isLetter c)

def Lead.ofFlag (inside : Bool) : Lead := if inside then .block else .between

@[simp] theorem Lead.ofFlag_true : Lead.ofFlag true = .block := rfl

@[simp] theorem Lead.ofFlag_false : Lead.ofFlag false = .between := rfl

@[simp] theorem skipLead_nil (m : Lead) : skipLead m [] = [] := by
  cases m <;> rfl

theorem skipLead_suffix (m : Lead) (l : List Char) : skipLead m l <:+ l := by
  fun_induction skipLead m l with
  | case1 => exact List.suffix_refl _
  | case2 c _ => exact List.nil_suffix
  | case3 c _ => exact List.suffix_refl _
  | case4 c d r _ ih => exact ih.trans ⟨[c, d], rfl⟩
  | case5 c d r _ _ ih => exact ih.trans ⟨[c, d], rfl⟩
  | case6 c d r _ _ _ ih => exact ih.trans (List.suffix_cons c (d :: r))
  | case7 c d r => exact List.suffix_refl _
  | case8 r ih => exact ih.trans (List.suffix_cons '\n' r)
  | case9 c r _ ih => exact ih.trans (List.suffix_cons c r)
  | case10 c => exact List.nil_suffix
  | case11 c d r _ ih => exact ih.trans ⟨[c, d], rfl⟩
  | case12 c d r _ ih => exact ih.trans (List.suffix_cons c (d :: r))

/-- What a scan passes before it comes to code: blanks and whole comments. -/
inductive Passes : Lead → List Char → Prop
  | nil : Passes .between []
  | blank {c : Char} {lead : List Char} (hc : Text.isBlank c) (h : Passes .between lead) :
      Passes .between (c :: lead)
  | openLine {lead : List Char} (h : Passes .line lead) : Passes .between ('/' :: '/' :: lead)
  | openBlock {lead : List Char} (h : Passes .block lead) : Passes .between ('/' :: '*' :: lead)
  | closeLine {lead : List Char} (h : Passes .between lead) : Passes .line ('\n' :: lead)
  | line {c : Char} {lead : List Char} (hc : c ≠ '\n') (h : Passes .line lead) :
      Passes .line (c :: lead)
  | closeBlock {lead : List Char} (h : Passes .between lead) : Passes .block ('*' :: '/' :: lead)
  | block {c d : Char} {lead : List Char} (hcd : ¬ (c = '*' ∧ d = '/'))
      (h : Passes .block (d :: lead)) : Passes .block (c :: d :: lead)

theorem exists_passes {m : Lead} {l : List Char} (h : skipLead m l ≠ []) :
    ∃ lead, l = lead ++ skipLead m l ∧ Passes m lead := by
  fun_induction skipLead m l with
  | case1 => exact absurd rfl h
  | case2 c _ => exact absurd rfl h
  | case3 c _ => exact ⟨[], rfl, .nil⟩
  | case4 c d r hmark ih =>
      obtain ⟨lead, hl, hlead⟩ := ih h
      obtain ⟨rfl, rfl⟩ := hmark
      exact ⟨'/' :: '/' :: lead, by rw [List.cons_append, List.cons_append, ← hl], .openLine hlead⟩
  | case5 c d r _ hmark ih =>
      obtain ⟨lead, hl, hlead⟩ := ih h
      obtain ⟨rfl, rfl⟩ := hmark
      exact ⟨'/' :: '*' :: lead, by rw [List.cons_append, List.cons_append, ← hl], .openBlock hlead⟩
  | case6 c d r _ _ hblank ih =>
      obtain ⟨lead, hl, hlead⟩ := ih h
      exact ⟨c :: lead, by rw [List.cons_append, ← hl], .blank hblank hlead⟩
  | case7 c d r => exact ⟨[], rfl, .nil⟩
  | case8 r ih =>
      obtain ⟨lead, hl, hlead⟩ := ih h
      exact ⟨'\n' :: lead, by rw [List.cons_append, ← hl], .closeLine hlead⟩
  | case9 c r hc ih =>
      obtain ⟨lead, hl, hlead⟩ := ih h
      exact ⟨c :: lead, by rw [List.cons_append, ← hl], .line hc hlead⟩
  | case10 c => exact absurd rfl h
  | case11 c d r hmark ih =>
      obtain ⟨lead, hl, hlead⟩ := ih h
      obtain ⟨rfl, rfl⟩ := hmark
      exact ⟨'*' :: '/' :: lead, by rw [List.cons_append, List.cons_append, ← hl], .closeBlock hlead⟩
  | case12 c d r hmark ih =>
      obtain ⟨lead, hl, hlead⟩ := ih h
      -- The lead has `d`, for the comment is still open before it.
      cases lead with
      | nil => cases hlead
      | cons e lead =>
          obtain rfl := (List.cons.inj hl).1
          exact ⟨c :: d :: lead, by rw [List.cons_append, ← hl], .block hmark hlead⟩

theorem skipLead_between_blank {c : Char} (h : Text.isBlank c) (r : List Char) :
    skipLead .between (c :: r) = skipLead .between r := by
  have hc : c ≠ '/' := by
    rintro rfl
    exact absurd h (by decide)
  cases r with
  | nil => simp [skipLead, h]
  | cons d r => simp [skipLead, h, hc]

theorem skipLead_between_dropWhile (l tail : List Char) :
    skipLead .between (l ++ tail) = skipLead .between (l.dropWhile Text.isBlank ++ tail) := by
  induction l with
  | nil => rfl
  | cons c l ih =>
      by_cases h : Text.isBlank c
      · rw [List.cons_append, skipLead_between_blank h, ih, List.dropWhile_cons_of_pos h]
      · rw [List.dropWhile_cons_of_neg h]

theorem skipLead_line (l : List Char) :
    skipLead .line l = skipLead .between (l.dropWhile (· ≠ '\n')) := by
  induction l with
  | nil => rfl
  | cons c l ih =>
      by_cases hc : c = '\n'
      · subst hc
        rw [List.dropWhile_cons_of_neg (by simp), skipLead_between_blank (by decide)]
        simp [skipLead]
      · rw [List.dropWhile_cons_of_pos (by simpa using hc), ← ih]
        simp [skipLead, hc]

/-- A block comment goes on to the first mark that closes it. -/
theorem skipLead_block_of_after? {l rest : List Char}
    (h : Text.after? ['*', '/'] l = some rest) (tail : List Char) :
    skipLead .block (l ++ tail) = skipLead .between (rest ++ tail) := by
  induction l with
  | nil => simp [Text.after?, List.isPrefixOf?] at h
  | cons c l ih =>
      cases l with
      | nil => simp [Text.after?, List.isPrefixOf?] at h
      | cons d r =>
          rw [Text.after?_pair] at h
          simp only [List.cons_append, skipLead] at ih ⊢
          split at h
          · next hmark =>
            cases h
            rw [if_pos hmark]
          · next hmark =>
            rw [if_neg hmark]
            exact ih h

/-- A block comment that a line does not close goes on in the next one: the line
ends in LF, which is no half of a mark. -/
theorem skipLead_block_of_after?_eq_none {l tail : List Char} (hl : l = [] ∨ FirstLine l tail)
    (h : Text.after? ['*', '/'] l = none) : skipLead .block (l ++ tail) = skipLead .block tail := by
  induction l with
  | nil => rfl
  | cons c l ih =>
      have hfirst := hl.resolve_left (by simp)
      cases l with
      | nil =>
          rw [List.singleton_append]
          -- A mark could only stand half in the line and half in `tail`.
          cases tail with
          | nil => rfl
          | cons d r =>
              have hc : c = '\n' := by simpa using hfirst.getLast?_eq (by simp)
              subst hc
              simp [skipLead]
      | cons d r =>
          rw [Text.after?_pair] at h
          split at h
          · cases h
          · next hmark =>
            rw [← ih (FirstLine.nil_or_of_suffix hl (List.suffix_cons c (d :: r))) h]
            simp only [List.cons_append, skipLead]
            rw [if_neg hmark]

/-- What is found after the comments at the start of a line, seen from the scan over
`l ++ tail`. Either a comment is still open and the line is used up, or the code
starts no comment of its own. -/
structure LeavesCode (inside : Bool) (l tail : List Char) (found : Bool × List Char) :
    Prop where
  skipLead_eq : skipLead (.ofFlag inside) (l ++ tail) = skipLead (.ofFlag found.1) (found.2 ++ tail)
  suffix : found.2 <:+ l
  closed : found.2 ≠ [] → found.1 = false
  head : ∀ c ∈ found.2.head?, Text.isBlank c = false
  no_comment : ['/', '*'].isPrefixOf? found.2 = none

theorem leavesCode_leadingCode (inside : Bool) {bound : Nat} {l tail : List Char}
    (hbound : l.length < bound) (hl : l = [] ∨ FirstLine l tail) :
    LeavesCode inside l tail (leadingCode bound inside l) := by
  -- Every step goes on after a mark, with a shorter end of the same line.
  induction bound generalizing inside l with
  | zero => omega
  | succ bound ih =>
      cases inside with
      | true =>
          rw [leadingCode]
          cases hmark : Text.after? ['*', '/'] l with
          | none =>
              exact ⟨skipLead_block_of_after?_eq_none hl hmark, List.nil_suffix,
                fun h => absurd rfl h, by simp, rfl⟩
          | some rest =>
              obtain ⟨s, hs⟩ := Text.exists_append_of_after? hmark
              have hrest : rest <:+ l := ⟨s ++ ['*', '/'], hs.symm⟩
              have hlength : rest.length < bound := by
                have := congrArg List.length hs
                simp only [List.length_append, List.length_cons, List.length_nil] at this
                omega
              have h := ih false hlength (FirstLine.nil_or_of_suffix hl hrest)
              exact { h with
                skipLead_eq := (skipLead_block_of_after? hmark tail).trans h.skipLead_eq
                suffix := h.suffix.trans hrest }
      | false =>
          have hcode := List.dropWhile_suffix (l := l) Text.isBlank
          rw [leadingCode]
          cases hmark : ['/', '*'].isPrefixOf? (l.dropWhile Text.isBlank) with
          | none =>
              refine ⟨skipLead_between_dropWhile l tail, hcode, fun _ => rfl, ?_, hmark⟩
              intro c hc
              have h := List.head?_dropWhile_not Text.isBlank l
              rw [show (l.dropWhile Text.isBlank).head? = some c from hc] at h
              exact h
          | some rest =>
              have hs := List.isPrefixOf?_eq_some_iff_append_eq.1 hmark
              have hrest : rest <:+ l := List.IsSuffix.trans ⟨['/', '*'], hs⟩ hcode
              have hlength : rest.length < bound := by
                have := hcode.length_le
                rw [← hs] at this
                simp only [List.length_append, List.length_cons, List.length_nil] at this
                omega
              have h := ih true hlength (FirstLine.nil_or_of_suffix hl hrest)
              exact { h with
                skipLead_eq := by
                  rw [← h.skipLead_eq, Lead.ofFlag_false, skipLead_between_dropWhile, ← hs]
                  simp [skipLead]
                suffix := h.suffix.trans hrest }

/-- Code that starts no comment is where a scan stops. -/
theorem skipLead_between_eq_self {code tail : List Char} (hfirst : FirstLine code tail)
    (hblank : ∀ c ∈ code.head?, Text.isBlank c = false)
    (hblock : ['/', '*'].isPrefixOf? code = none) (hline : ['/', '/'].isPrefixOf? code = none) :
    skipLead .between (code ++ tail) = code ++ tail := by
  cases code with
  | nil => exact absurd rfl hfirst.ne_nil
  | cons c code =>
      have hc : Text.isBlank c = false := hblank c rfl
      cases code with
      | nil =>
          rw [List.singleton_append]
          -- A single slash before a slash or a star is excluded: `code` ends its line.
          cases tail with
          | nil => simp [skipLead, hc]
          | cons d r =>
              have hlf : c = '\n' := by simpa using hfirst.getLast?_eq (by simp)
              subst hlf
              exact absurd hc (by decide)
      | cons d r =>
          rw [Text.isPrefixOf?_pair] at hblock hline
          have hblock' : ¬ (c = '/' ∧ d = '*') := fun h => by simp [h] at hblock
          have hline' : ¬ (c = '/' ∧ d = '/') := fun h => by simp [h] at hline
          simp [skipLead, hc, hblock', hline']

/-- A line comment goes on to the next line. -/
theorem skipLead_line_append {r tail : List Char} (h : FirstLine r tail) :
    skipLead .line (r ++ tail) = skipLead .between tail := by
  rw [skipLead_line, h.dropWhile_append]
  cases h with
  | ended tail hx =>
      rw [if_pos (by simp)]
      exact skipLead_between_blank (by decide) tail
  | last hx _ => rw [if_neg hx]

theorem isVacant_iff {code : List Char} (hblank : ∀ c ∈ code.head?, Text.isBlank c = false) :
    isVacant code = true ↔ code = [] ∨ ∃ r, code = '/' :: '/' :: r := by
  cases code with
  | nil => simp [isVacant, Text.trim]
  | cons c r =>
      have hc : Text.isBlank c = false := hblank c rfl
      have htrim : Text.trim (c :: r) = c :: Text.dropEndWhile Text.isBlank r := by
        rw [Text.trim, List.dropWhile_cons_of_neg (by simp [hc])]
        exact Text.dropEndWhile_append_cons_of_neg [] r hc
      cases r with
      | nil => simp [isVacant, htrim]
      | cons d r =>
          obtain ⟨t, ht, hblanks⟩ := Text.exists_dropEndWhile_append Text.isBlank (d :: r)
          rw [isVacant, htrim]
          cases hdrop : Text.dropEndWhile Text.isBlank (d :: r) with
          | nil =>
              -- Only blanks follow `c`, and a slash is none.
              rw [hdrop, List.nil_append] at ht
              have hd : d ≠ '/' := by
                rintro rfl
                exact absurd (hblanks '/' (ht ▸ List.mem_cons_self)) (by decide)
              simp [hd]
          | cons e s =>
              rw [hdrop, List.cons_append] at ht
              obtain rfl : d = e := (List.cons.inj ht).1
              simp [@eq_comm Char '/']

theorem isGap_eq_false_of_isIdentStart {c : Char} (h : isIdentStart c) : isGap c = false := by
  by_contra hgap
  rcases isGap_iff.1 (by simpa using hgap) with rfl | rfl <;> exact absurd h (by decide)

theorem isIdentStart_iff {c : Char} : isIdentStart c = true ↔ c = '_' ∨ Text.isLetter c := by
  simp [isIdentStart]

theorem startsClause_iff {code : List Char} : startsClause code = true ↔ StartsClause code := by
  constructor
  · intro h
    unfold startsClause at h
    split at h
    · next g r hprefix =>
      have hcode := List.isPrefixOf?_eq_some_iff_append_eq.1 hprefix
      rw [Bool.and_eq_true] at h
      obtain ⟨hg, h⟩ := h
      split at h
      · next c s hdrop =>
        refine ⟨g :: r.takeWhile isGap, c, s, ?_, by simp, ?_, isIdentStart_iff.1 h⟩
        · rw [← hcode, ← hdrop]
          simp
        · intro x hx
          rw [← isGap_iff]
          rcases List.mem_cons.1 hx with rfl | hx
          · exact hg
          · exact List.mem_takeWhile_imp hx
      · cases h
    · cases h
  · rintro ⟨gap, c, r, rfl, hne, hgap, hc⟩
    have hstart : isIdentStart c := isIdentStart_iff.2 hc
    cases gap with
    | nil => exact absurd rfl hne
    | cons g gap =>
        have hgaps : ∀ x ∈ gap, isGap x = true := fun x hx =>
          isGap_iff.2 (hgap x (List.mem_cons_of_mem _ hx))
        have hprefix : ['p', 'a', 'c', 'k', 'a', 'g', 'e'].isPrefixOf?
            ("package".toList ++ g :: gap ++ c :: r) = some (g :: (gap ++ c :: r)) := by
          rw [List.isPrefixOf?_eq_some_iff_append_eq]
          simp
        rw [startsClause, hprefix]
        have hdrop : (gap ++ c :: r).dropWhile isGap = c :: r := by
          rw [List.dropWhile_append_of_pos hgaps, List.dropWhile_cons_of_neg]
          simp [isGap_eq_false_of_isIdentStart hstart]
        simp only [hdrop, isGap_iff.2 (hgap g List.mem_cons_self), hstart, Bool.and_self]

/-- No line ends between `package` and the start of the name. -/
theorem lf_not_mem_clauseHead {gap : List Char} {c : Char} (hgap : ∀ g ∈ gap, g = ' ' ∨ g = '\t')
    (hc : c = '_' ∨ Text.isLetter c) : '\n' ∉ "package".toList ++ gap ++ [c] := by
  simp only [List.mem_append, List.mem_singleton, not_or]
  refine ⟨⟨by decide, lf_not_mem_gap hgap⟩, ?_⟩
  rintro rfl
  rcases hc with h | h <;> exact absurd h (by decide)

/-- A clause starts within one line. -/
theorem startsClause_append_iff {code tail : List Char} (h : FirstLine code tail) :
    StartsClause (code ++ tail) ↔ StartsClause code := by
  constructor
  · rintro ⟨gap, c, r, heq, hne, hgap, hc⟩
    rw [← List.singleton_append, ← List.append_assoc, List.append_eq_append_iff] at heq
    rcases heq with ⟨s, hs, hr⟩ | ⟨s, hs, hr⟩
    · cases tail with
      | nil => exact ⟨gap, c, [], by simp_all, hne, hgap, hc⟩
      | cons d tail =>
          -- The line would end inside of the clause, but its LF is not there.
          refine absurd ?_ (lf_not_mem_clauseHead hgap hc)
          rw [hs]
          exact List.mem_append_left _ (List.mem_of_getLast? (h.getLast?_eq (by simp)))
    · exact ⟨gap, c, s, by simp [hs], hne, hgap, hc⟩
  · rintro ⟨gap, c, r, rfl, hne, hgap, hc⟩
    exact ⟨gap, c, r ++ tail, by simp, hne, hgap, hc⟩

/-- One line: the scan passes it whole, or stops at its code. -/
theorem splitClauseLines_cons {line tail : List Char} (h : FirstLine line tail) (inside : Bool)
    (rest : List (List Char)) :
    (∃ next, skipLead (.ofFlag inside) (line ++ tail) = skipLead (.ofFlag next) tail ∧
      splitClauseLines inside (line :: rest) =
        (splitClauseLines next rest).map fun (clause, rest) => (line :: clause, rest)) ∨
    ∃ code, FirstLine code tail ∧ code <:+ line ∧
      skipLead (.ofFlag inside) (line ++ tail) = code ++ tail ∧
      splitClauseLines inside (line :: rest) =
        if startsClause code then some ([Text.trimBreaks line], rest) else none := by
  have hfound := leavesCode_leadingCode inside (Nat.lt_add_one line.length) (.inr h)
  rw [splitClauseLines]
  generalize leadingCode (line.length + 1) inside line = found at hfound ⊢
  obtain ⟨next, code⟩ := found
  have hskip : skipLead (.ofFlag inside) (line ++ tail) = skipLead (.ofFlag next) (code ++ tail) :=
    hfound.skipLead_eq
  -- A comment that is still open leaves no code, so code stands outside of comments.
  by_cases hvacant : isVacant code
  · left
    refine ⟨next, ?_, by simp [hvacant]⟩
    rw [hskip]
    rcases (isVacant_iff hfound.head).1 hvacant with rfl | ⟨r, rfl⟩
    · rfl
    · have hnext : next = false := hfound.closed (by simp)
      have hcode := h.of_suffix hfound.suffix (by simp)
      subst hnext
      rw [Lead.ofFlag_false]
      simp only [List.cons_append, skipLead, and_self, if_true]
      by_cases hr : r = []
      · -- Two slashes end no line, so nothing follows.
        subst hr
        cases tail with
        | nil => rfl
        | cons c tail => exact absurd (hcode.getLast?_eq (by simp)) (by decide)
      · exact skipLead_line_append (hcode.of_suffix ⟨['/', '/'], rfl⟩ hr)
  · right
    have hne : code ≠ [] := fun e => hvacant ((isVacant_iff hfound.head).2 (.inl e))
    have hnext : next = false := hfound.closed hne
    have hcode := h.of_suffix hfound.suffix hne
    have hline : ['/', '/'].isPrefixOf? code = none := by
      rw [Option.eq_none_iff_forall_not_mem]
      intro r hr
      have := List.isPrefixOf?_eq_some_iff_append_eq.1 hr
      exact hvacant ((isVacant_iff hfound.head).2 (.inr ⟨r, this.symm⟩))
    refine ⟨code, hcode, hfound.suffix, ?_, by simp [hvacant]⟩
    rw [hskip, hnext]
    exact skipLead_between_eq_self hcode hfound.head hfound.no_comment hline

theorem splitClauseLines_eq_none (inside : Bool) {text : List Char}
    (h : ¬ StartsClause (skipLead (.ofFlag inside) text)) :
    splitClauseLines inside (Text.keptLines text) = none := by
  induction text using Text.lineInduction generalizing inside with
  | nil => rfl
  | line line tail hline ih =>
      rw [hline.keptLines_append]
      rcases splitClauseLines_cons hline inside (Text.keptLines tail) with
        ⟨next, hskip, hsplit⟩ | ⟨code, hcode, -, hskip, hsplit⟩
      · rw [hskip] at h
        rw [hsplit, ih next h, Option.map_none]
      · rw [hskip, startsClause_append_iff hcode, ← startsClause_iff] at h
        rw [hsplit, if_neg h]

theorem exists_splitClauseLines (inside : Bool) {text lead : List Char}
    (htext : text = lead ++ skipLead (.ofFlag inside) text)
    (h : StartsClause (skipLead (.ofFlag inside) text)) :
    ∃ clause rest, splitClauseLines inside (Text.keptLines text) = some (clause, rest) ∧
      clause.flatten =
        lead ++ Text.trimBreaks ((skipLead (.ofFlag inside) text).takeWhile (· ≠ '\n')) ∧
      rest.flatten = ((skipLead (.ofFlag inside) text).dropWhile (· ≠ '\n')).tail := by
  induction text using Text.lineInduction generalizing inside lead with
  | nil =>
      obtain ⟨gap, c, r, hcode, -⟩ := h
      simp at hcode
  | line line tail hline ih =>
      rw [hline.keptLines_append]
      rcases splitClauseLines_cons hline inside (Text.keptLines tail) with
        ⟨next, hskip, hsplit⟩ | ⟨code, hcode, ⟨before, hbefore⟩, hskip, hsplit⟩
      · rw [hskip] at h htext ⊢
        -- The scan stops in `tail`, so `lead` has the whole line in front.
        obtain ⟨lead', hlead'⟩ := skipLead_suffix (.ofFlag next) tail
        have hlead : lead = line ++ lead' := by
          have : lead ++ skipLead (.ofFlag next) tail = line ++ lead' ++ skipLead (.ofFlag next) tail := by
            rw [← htext, List.append_assoc, hlead']
          exact List.append_cancel_right this
        obtain ⟨clause, rest, hsome, hclause, hrest⟩ := ih next hlead'.symm h
        refine ⟨line :: clause, rest, ?_, ?_, hrest⟩
        · rw [hsplit, hsome, Option.map_some]
        · rw [List.flatten_cons, hclause, hlead, List.append_assoc]
      · rw [hskip] at h htext ⊢
        -- The scan stops in the line, where the code that was found for it begins.
        have hstarts := (startsClause_append_iff hcode).1 h
        have hlead : lead = before := by
          have : lead ++ (code ++ tail) = before ++ (code ++ tail) := by
            rw [← htext, ← hbefore, List.append_assoc]
          exact List.append_cancel_right this
        obtain ⟨gap, c, r, hpackage, -⟩ := hstarts
        refine ⟨[Text.trimBreaks line], Text.keptLines tail, ?_, ?_, ?_⟩
        · rw [hsplit, if_pos (startsClause_iff.2 ((startsClause_append_iff hcode).1 h))]
        · rw [hcode.trimBreaks_takeWhile, hlead, ← hbefore, List.flatten_singleton, hpackage]
          exact Text.trimBreaks_append_cons before _ (by decide)
        · rw [hcode.tail_dropWhile, Text.flatten_keptLines]

/-- A body whose scan stops at a clause is cut after the line of the clause. -/
theorem splitClause_eq_some {lead code : List Char}
    (hskip : skipLead .between (lead ++ code) = code) (h : StartsClause code) :
    splitClause (String.ofList (lead ++ code)) =
      (some (String.ofList (lead ++ Text.trimBreaks (code.takeWhile (· ≠ '\n')))),
        String.ofList (code.dropWhile (· ≠ '\n')).tail) := by
  obtain ⟨clause, rest, hsome, hclause, hrest⟩ :=
    exists_splitClauseLines false (show lead ++ code = lead ++ skipLead .between (lead ++ code) by
      rw [hskip]) (by rwa [Lead.ofFlag_false, hskip])
  rw [Lead.ofFlag_false, hskip] at hclause hrest
  simp only [splitClause, String.toList_ofList, hsome, hclause, hrest]

theorem splitClause_eq_none {body : String}
    (h : ¬ StartsClause (skipLead .between body.toList)) : splitClause body = (none, body) := by
  have hnone := splitClauseLines_eq_none false h
  simp only [splitClause, hnone]

/-- The package clause of a body is the one that a scan over the whole text finds:
the clause is the text before the code with the first line of the code, and the
rest is what follows this line. Where the code starts no clause, nothing is cut. -/
theorem splitClause_eq_scan (body : String) :
    ∃ lead code, code = skipLead .between body.toList ∧ body.toList = lead ++ code ∧
      (StartsClause code → splitClause body =
        (some (String.ofList (lead ++ Text.trimBreaks (code.takeWhile (· ≠ '\n')))),
          String.ofList (code.dropWhile (· ≠ '\n')).tail)) ∧
      (¬ StartsClause code → splitClause body = (none, body)) := by
  obtain ⟨lead, hbody⟩ := skipLead_suffix .between body.toList
  refine ⟨lead, _, rfl, hbody.symm, ?_, ?_⟩
  · intro h
    have hskip : skipLead .between (lead ++ skipLead .between body.toList) =
        skipLead .between body.toList := by rw [hbody]
    have hsome := splitClause_eq_some hskip h
    rwa [hbody, String.ofList_toList] at hsome
  · exact splitClause_eq_none

end GoCell.Go
