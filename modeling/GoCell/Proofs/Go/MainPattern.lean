import GoCell.Proofs.Go.EntryPoint
import GoCell.Proofs.Text.Line
import Mathlib.Computability.RegularExpressions

/-!
The search for an entry point is one for a regular expression at the start of any line. What
it finds can be told line by line, since no match reaches over a line break: a text is
searched by searching its lines, and line breaks at the end of a text make no difference to
their number.
-/

namespace GoCell.Go

/-! ### The pattern -/

/-- A space or a tab. -/
def gapPattern : RegularExpression Char := .char ' ' + .char '\t'

/-- A fixed text. -/
def wordPattern (word : List Char) : RegularExpression Char :=
  word.foldr (fun c rest => .char c * rest) 1

/-- One gap or more. -/
def gapsPattern : RegularExpression Char := gapPattern * .star gapPattern

/-- The pattern `[ \t]*func[ \t]+main[ \t]*\([ \t]*\)`. -/
def mainPattern : RegularExpression Char :=
  .star gapPattern * (wordPattern ['f', 'u', 'n', 'c'] * (gapsPattern *
    (wordPattern ['m', 'a', 'i', 'n'] * (.star gapPattern *
      (.char '(' * (.star gapPattern * .char ')'))))))

/-- Whether the pattern matches somewhere in a text, at the start of a line. -/
def FindsMain (text : List Char) : Prop :=
  ∃ before m after, text = before ++ m ++ after ∧ EndsLine before ∧ m ∈ mainPattern.matches'

theorem mem_matches'_char {c : Char} {l : List Char} :
    l ∈ (RegularExpression.char c).matches' ↔ l = [c] := Iff.rfl

theorem mem_matches'_mul {P Q : RegularExpression Char} {l : List Char} :
    l ∈ (P * Q).matches' ↔ ∃ a b, l = a ++ b ∧ a ∈ P.matches' ∧ b ∈ Q.matches' := by
  rw [RegularExpression.matches'_mul, Language.mem_mul]
  constructor
  · rintro ⟨a, ha, b, hb, rfl⟩
    exact ⟨a, b, rfl, ha, hb⟩
  · rintro ⟨a, b, rfl, ha, hb⟩
    exact ⟨a, ha, b, hb, rfl⟩

theorem mem_matches'_wordPattern {word l : List Char} :
    l ∈ (wordPattern word).matches' ↔ l = word := by
  induction word generalizing l with
  | nil => exact Iff.rfl
  | cons c word ih =>
      show l ∈ (.char c * wordPattern word : RegularExpression Char).matches' ↔ _
      simp only [mem_matches'_mul, mem_matches'_char, ih]
      constructor
      · rintro ⟨a, b, rfl, rfl, rfl⟩
        rfl
      · rintro rfl
        exact ⟨[c], word, rfl, rfl, rfl⟩

theorem mem_matches'_gapPattern {l : List Char} :
    l ∈ gapPattern.matches' ↔ ∃ c, l = [c] ∧ (c = ' ' ∨ c = '\t') := by
  rw [gapPattern, RegularExpression.matches'_add, Language.mem_add, mem_matches'_char,
    mem_matches'_char]
  constructor
  · rintro (rfl | rfl)
    · exact ⟨' ', rfl, .inl rfl⟩
    · exact ⟨'\t', rfl, .inr rfl⟩
  · rintro ⟨c, rfl, rfl | rfl⟩
    · exact .inl rfl
    · exact .inr rfl

theorem mem_matches'_star_gapPattern {l : List Char} :
    l ∈ (RegularExpression.star gapPattern).matches' ↔ ∀ c ∈ l, c = ' ' ∨ c = '\t' := by
  rw [RegularExpression.matches'_star, Language.mem_kstar]
  constructor
  · rintro ⟨gaps, rfl, hgaps⟩ c hc
    obtain ⟨gap, hgap, hc⟩ := List.mem_flatten.1 hc
    obtain ⟨d, rfl, hd⟩ := mem_matches'_gapPattern.1 (hgaps gap hgap)
    rwa [List.mem_singleton.1 hc]
  · intro h
    refine ⟨l.map fun c => [c], (List.flatMap_singleton' l).symm, ?_⟩
    rw [List.forall_mem_map]
    intro c hc
    exact mem_matches'_gapPattern.2 ⟨c, rfl, h c hc⟩

theorem mem_matches'_gapsPattern {l : List Char} :
    l ∈ gapsPattern.matches' ↔ l ≠ [] ∧ ∀ c ∈ l, c = ' ' ∨ c = '\t' := by
  simp only [gapsPattern, mem_matches'_mul, mem_matches'_gapPattern, mem_matches'_star_gapPattern]
  constructor
  · rintro ⟨-, b, rfl, ⟨c, rfl, hc⟩, hb⟩
    exact ⟨by simp, List.forall_mem_cons.2 ⟨hc, hb⟩⟩
  · rintro ⟨hne, hall⟩
    obtain ⟨c, b, rfl⟩ := List.exists_cons_of_ne_nil hne
    obtain ⟨hc, hb⟩ := List.forall_mem_cons.1 hall
    exact ⟨[c], b, rfl, ⟨c, rfl, hc⟩, hb⟩

/-- The pattern matches the heads of `main`. -/
theorem mem_matches'_mainPattern {m : List Char} : m ∈ mainPattern.matches' ↔ IsMainHead m := by
  simp only [mainPattern, mem_matches'_mul, mem_matches'_char, mem_matches'_wordPattern,
    mem_matches'_gapsPattern, mem_matches'_star_gapPattern]
  constructor
  · rintro ⟨g₁, -, rfl, hg₁, -, -, rfl, rfl, g₂, -, rfl, ⟨hne, hg₂⟩, -, -, rfl, rfl, g₃, -, rfl,
      hg₃, -, -, rfl, rfl, g₄, -, rfl, hg₄, rfl⟩
    refine ⟨g₁, g₂, g₃, g₄, rfl, hne, ?_⟩
    simp only [List.forall_mem_append]
    exact ⟨⟨⟨hg₁, hg₂⟩, hg₃⟩, hg₄⟩
  · rintro ⟨g₁, g₂, g₃, g₄, rfl, hne, hgaps⟩
    simp only [List.forall_mem_append] at hgaps
    obtain ⟨⟨⟨hg₁, hg₂⟩, hg₃⟩, hg₄⟩ := hgaps
    exact ⟨g₁, _, rfl, hg₁, _, _, rfl, rfl, g₂, _, rfl, ⟨hne, hg₂⟩, _, _, rfl, rfl, g₃, _, rfl,
      hg₃, ['('], _, rfl, rfl, g₄, _, rfl, hg₄, rfl⟩

theorem hasMain_iff_findsMain {text : String} : hasMain text = true ↔ FindsMain text.toList := by
  simp only [hasMain_iff, FindsMain, mem_matches'_mainPattern]

/-! ### Lines that start `main` -/

/-- Whether a line starts with a head of `main`. -/
def IsMainLine (line : List Char) : Prop := ∃ m r, line = m ++ r ∧ IsMainHead m

instance : DecidablePred IsMainLine := fun _ => decidable_of_iff _ startsMain_iff

/-- How many lines of a text start `main`. -/
def mainCount (text : List Char) : Nat := (text.splitOn '\n').countP (IsMainLine ·)

theorem hasMain_iff_exists_line {text : String} :
    hasMain text = true ↔ ∃ line ∈ text.toList.splitOn '\n', IsMainLine line := by
  simp only [hasMain, List.any_eq_true, IsMainLine, startsMain_iff]

theorem mainCount_eq_zero_iff {text : List Char} :
    mainCount text = 0 ↔ ∀ line ∈ text.splitOn '\n', ¬IsMainLine line := by
  simp [mainCount, List.countP_eq_zero]

theorem mainCount_append_lf (a b : List Char) :
    mainCount (a ++ '\n' :: b) = mainCount a + mainCount b := by
  rw [mainCount, List.splitOn_append_cons_self, List.countP_append, mainCount, mainCount]

theorem hasMain_eq (text : String) : hasMain text = decide (mainCount text.toList ≠ 0) := by
  rw [Bool.eq_iff_iff, hasMain_iff_exists_line, decide_eq_true_iff, ne_eq, mainCount_eq_zero_iff]
  simp

/-- A text is searched by searching its lines. -/
theorem hasMain_append_lf (a b : String) :
    hasMain (a ++ "\n" ++ b) = (hasMain a || hasMain b) := by
  have htext : (a ++ "\n" ++ b).toList = a.toList ++ '\n' :: b.toList := by simp
  rw [hasMain, htext, List.splitOn_append_cons_self, List.any_append, ← hasMain, ← hasMain]

/-! ### Line breaks at the end -/

theorem isMainLine_append_iff {line t : List Char} (h : ')' ∉ t) :
    IsMainLine (line ++ t) ↔ IsMainLine line := by
  constructor
  · rintro ⟨m, r, heq, hm⟩
    rcases List.append_eq_append_iff.1 heq with ⟨k, rfl, ht⟩ | ⟨k, rfl, -⟩
    · -- the head would end in what is added
      cases hk : k.getLast? with
      | none =>
          rw [List.getLast?_eq_none_iff.1 hk, List.append_nil] at hm
          exact ⟨line, [], by simp, hm⟩
      | some c =>
          have hlast := getLast?_of_isMainHead hm
          rw [List.getLast?_append, hk, Option.some_or] at hlast
          have hmem : ')' ∈ k := List.mem_of_getLast? (hk.trans hlast)
          exact absurd (ht ▸ List.mem_append_left r hmem) h
    · exact ⟨m, k, rfl, hm⟩
  · rintro ⟨m, r, rfl, hm⟩
    exact ⟨m, r ++ t, List.append_assoc m r t, hm⟩

/-- What does not end a line or a head of `main` makes no difference at the end of a text. -/
theorem mainCount_concat {c : Char} (hlf : c ≠ '\n') (hparen : c ≠ ')') (l : List Char) :
    mainCount (l ++ [c]) = mainCount l := by
  induction l using Text.splitInduction '\n' with
  | last x hx =>
      have hline : '\n' ∉ x ++ [c] := by simpa [hx] using hlf.symm
      have hmain : IsMainLine (x ++ [c]) ↔ IsMainLine x :=
        isMainLine_append_iff (by simpa using hparen.symm)
      simp only [mainCount, List.splitOn_eq_singleton hline, List.splitOn_eq_singleton hx,
        List.countP_singleton, hmain]
  | piece x r hx ih =>
      rw [List.append_assoc, List.cons_append, mainCount_append_lf, mainCount_append_lf, ih]

theorem mainCount_append_breaks {t : List Char} (h : ∀ c ∈ t, Text.isLineBreak c)
    (l : List Char) : mainCount (l ++ t) = mainCount l := by
  induction t generalizing l with
  | nil => rw [List.append_nil]
  | cons c t ih =>
      obtain ⟨hc, ht⟩ := List.forall_mem_cons.1 h
      rcases Text.isLineBreak_iff.1 hc with rfl | rfl
      · -- the lines that follow hold breaks alone
        have hrest := ih ht []
        rw [List.nil_append] at hrest
        rw [mainCount_append_lf, hrest]
        rfl
      · rw [List.append_cons, ih ht, mainCount_concat (by decide) (by decide)]

theorem mainCount_trimBreaks (l : List Char) : mainCount (Text.trimBreaks l) = mainCount l := by
  obtain ⟨t, ht, hbreaks⟩ := Text.exists_dropEndWhile_append Text.isLineBreak l
  rw [← Text.trimBreaks] at ht
  conv_rhs => rw [ht]
  exact (mainCount_append_breaks hbreaks _).symm

/-- A wrapped body has the line that opens `main` before its own lines. -/
theorem splitOn_wrapMain (body : String) :
    (wrapMain body).toList.splitOn '\n' = "func main() \x7b".toList ::
      ((Text.trimBreaks body.toList).splitOn '\n' ++ [['\x7d']]) := by
  have htext : (wrapMain body).toList = "func main() \x7b".toList ++ '\n' ::
      (Text.trimBreaks body.toList ++ '\n' :: ['\x7d']) := by
    simp [wrapMain]
  have hlast : ['\x7d'].splitOn '\n' = [['\x7d']] := List.splitOn_eq_singleton (by decide)
  rw [htext, List.splitOn_append_cons_self_of_not_mem (by decide), List.splitOn_append_cons_self,
    hlast]

end GoCell.Go
