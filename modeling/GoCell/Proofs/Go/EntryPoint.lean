import GoCell.Go.EntryPoint
import Mathlib.Data.List.Basic
import Mathlib.Data.List.TakeWhile

/-!
The lines that start `main`, described as parts of the text: what stands before
such a part ends a line, and the part itself holds no line break. So an entry point
is seen through whatever is put before or after it in lines of its own.
-/

namespace GoCell.Go

/-- `func main()` with gaps wherever they may stand, up to the closing parenthesis. -/
def IsMainHead (m : List Char) : Prop :=
  ∃ g₁ g₂ g₃ g₄ : List Char,
    m = g₁ ++ (['f', 'u', 'n', 'c'] ++ (g₂ ++ (['m', 'a', 'i', 'n'] ++ (g₃ ++ '(' :: (g₄ ++ [')']))))) ∧
      g₂ ≠ [] ∧ ∀ c ∈ g₁ ++ g₂ ++ g₃ ++ g₄, c = ' ' ∨ c = '\t'

/-- Whether a line starts where a text ends. -/
def EndsLine (l : List Char) : Prop := l = [] ∨ l.getLast? = some '\n'

theorem skipGap_append {g : List Char} {c : Char} (hgap : ∀ x ∈ g, x = ' ' ∨ x = '\t')
    (hc : isGap c = false) (r : List Char) : skipGap (g ++ c :: r) = c :: r := by
  rw [skipGap, List.dropWhile_append_of_pos fun x hx => isGap_iff.2 (hgap x hx)]
  exact List.dropWhile_cons_of_neg (by simp [hc])

theorem exists_gap_append (l : List Char) :
    ∃ g, (∀ x ∈ g, x = ' ' ∨ x = '\t') ∧ l = g ++ skipGap l :=
  ⟨l.takeWhile isGap, fun _ hx => isGap_iff.1 (List.mem_takeWhile_imp hx),
    List.takeWhile_append_dropWhile.symm⟩

theorem startsNoParameters_iff {l : List Char} :
    startsNoParameters l = true ↔
      ∃ g r, l = '(' :: (g ++ ')' :: r) ∧ ∀ x ∈ g, x = ' ' ∨ x = '\t' := by
  constructor
  · intro h
    unfold startsNoParameters at h
    split at h
    · next r =>
      obtain ⟨g, hg, hr⟩ := exists_gap_append r
      cases hskip : skipGap r with
      | nil => simp [hskip] at h
      | cons c s =>
          obtain rfl : c = ')' := by simpa [hskip] using h
          exact ⟨g, s, by rw [← hskip, ← hr], hg⟩
    · cases h
  · rintro ⟨g, r, rfl, hg⟩
    simp [startsNoParameters, skipGap_append hg (show isGap ')' = false by decide)]

/-- A line starts `main` when it starts with a head of `main`. -/
theorem startsMain_iff {line : List Char} :
    startsMain line = true ↔ ∃ m r, line = m ++ r ∧ IsMainHead m := by
  constructor
  · intro h
    unfold startsMain at h
    split at h
    · next c r hfunc =>
      rw [Bool.and_eq_true] at h
      obtain ⟨hc, h⟩ := h
      split at h
      · next s hmain =>
        obtain ⟨g₁, hg₁, hline⟩ := exists_gap_append line
        obtain ⟨g₂, hg₂, hr⟩ := exists_gap_append r
        obtain ⟨g₃, hg₃, hs⟩ := exists_gap_append s
        obtain ⟨g₄, t, hparens, hg₄⟩ := startsNoParameters_iff.1 h
        rw [← List.isPrefixOf?_eq_some_iff_append_eq.1 hfunc, hr,
          ← List.isPrefixOf?_eq_some_iff_append_eq.1 hmain, hs, hparens] at hline
        refine ⟨_, t, ?_, g₁, c :: g₂, g₃, g₄, rfl, by simp, ?_⟩
        · rw [hline]
          simp
        · intro x hx
          simp only [List.mem_append, List.mem_cons] at hx
          rcases hx with ((hx | rfl | hx) | hx) | hx
          · exact hg₁ x hx
          · exact isGap_iff.1 hc
          · exact hg₂ x hx
          · exact hg₃ x hx
          · exact hg₄ x hx
      · cases h
    · cases h
  · rintro ⟨m, r, rfl, g₁, g₂, g₃, g₄, rfl, hne, hgap⟩
    cases g₂ with
    | nil => exact absurd rfl hne
    | cons c g₂ =>
        have hg₁ : ∀ x ∈ g₁, x = ' ' ∨ x = '\t' := fun x hx => hgap x (by simp [hx])
        have hg₂ : ∀ x ∈ g₂, x = ' ' ∨ x = '\t' := fun x hx => hgap x (by simp [hx])
        have hg₃ : ∀ x ∈ g₃, x = ' ' ∨ x = '\t' := fun x hx => hgap x (by simp [hx])
        have hg₄ : ∀ x ∈ g₄, x = ' ' ∨ x = '\t' := fun x hx => hgap x (by simp [hx])
        have hfunc : skipGap (g₁ ++ (['f', 'u', 'n', 'c'] ++ (c :: g₂ ++ (['m', 'a', 'i', 'n'] ++
            (g₃ ++ '(' :: (g₄ ++ [')']))))) ++ r) =
            ['f', 'u', 'n', 'c'] ++ c :: (g₂ ++ (['m', 'a', 'i', 'n'] ++
              (g₃ ++ '(' :: (g₄ ++ ')' :: r)))) := by
          rw [List.append_assoc]
          refine (skipGap_append hg₁ (c := 'f') (by decide) _).trans ?_
          simp
        have hmain : skipGap (g₂ ++ (['m', 'a', 'i', 'n'] ++ (g₃ ++ '(' :: (g₄ ++ ')' :: r)))) =
            ['m', 'a', 'i', 'n'] ++ (g₃ ++ '(' :: (g₄ ++ ')' :: r)) :=
          skipGap_append hg₂ (show isGap 'm' = false by decide) _
        have hparens : startsNoParameters (skipGap (g₃ ++ '(' :: (g₄ ++ ')' :: r))) = true := by
          rw [skipGap_append hg₃ (show isGap '(' = false by decide)]
          exact startsNoParameters_iff.2 ⟨g₄, r, rfl, hg₄⟩
        rw [startsMain, hfunc, List.isPrefixOf?_eq_some_iff_append_eq.2 rfl]
        simp only [hmain, List.isPrefixOf?_eq_some_iff_append_eq.2 rfl, hparens, Bool.and_true]
        exact isGap_iff.2 (hgap c (by simp))

theorem lf_not_mem_of_isMainHead {m : List Char} (h : IsMainHead m) : '\n' ∉ m := by
  obtain ⟨g₁, g₂, g₃, g₄, rfl, -, hgap⟩ := h
  have h₁ := lf_not_mem_gap fun x hx => hgap x (List.mem_append_left _ hx)
  have h₄ : '\n' ∉ g₄ := lf_not_mem_gap fun x hx => hgap x (by simp [hx])
  simp only [List.mem_append, not_or] at h₁
  simp [h₁, h₄]

theorem getLast?_of_isMainHead {m : List Char} (h : IsMainHead m) : m.getLast? = some ')' := by
  obtain ⟨g₁, g₂, g₃, g₄, rfl, -⟩ := h
  simp [List.getLast?_append, List.getLast?_cons]

theorem EndsLine.append {a b : List Char} (ha : EndsLine a) (hb : EndsLine b) :
    EndsLine (a ++ b) := by
  rcases hb with rfl | hb
  · rwa [List.append_nil]
  · right
    rw [List.getLast?_append, hb, Option.some_or]

theorem endsLine_concat (l : List Char) : EndsLine (l ++ ['\n']) := .inr (by simp)

theorem exists_intercalate_lf (before : List (List Char)) (line : List Char)
    (after : List (List Char)) :
    ∃ a b, ['\n'].intercalate (before ++ line :: after) = a ++ line ++ b ∧ EndsLine a := by
  induction before with
  | nil =>
      cases after with
      | nil => exact ⟨[], [], by simp, .inl rfl⟩
      | cons x after => exact ⟨[], '\n' :: ['\n'].intercalate (x :: after), by simp, .inl rfl⟩
  | cons x before ih =>
      obtain ⟨a, b, hlines, ha⟩ := ih
      refine ⟨x ++ ['\n'] ++ a, b, ?_, (endsLine_concat x).append ha⟩
      rw [List.cons_append, List.intercalate_cons_of_ne_nil (by simp), hlines]
      simp

/-- An entry point is a head of `main` at the start of a line. -/
theorem hasMain_iff {text : String} :
    hasMain text = true ↔
      ∃ before m after, text.toList = before ++ m ++ after ∧ EndsLine before ∧ IsMainHead m := by
  rw [hasMain, List.any_eq_true]
  constructor
  · rintro ⟨line, hline, hmain⟩
    obtain ⟨m, r, rfl, hm⟩ := startsMain_iff.1 hmain
    -- Joined again, the lines before this one stand in front of it with an LF each.
    obtain ⟨xs, ys, hsplit⟩ := List.append_of_mem hline
    obtain ⟨before, after, htext, hbefore⟩ := exists_intercalate_lf xs (m ++ r) ys
    rw [← hsplit, List.intercalate_splitOn] at htext
    exact ⟨before, m, r ++ after, by simp [htext], hbefore, hm⟩
  · rintro ⟨before, m, after, htext, hbefore, hm⟩
    have hfirst : ∃ r rest, (m ++ after).splitOn '\n' = (m ++ r) :: rest := by
      have hlf := lf_not_mem_of_isMainHead hm
      by_cases hafter : '\n' ∈ after
      · obtain ⟨r, rest, rfl, hr⟩ := List.eq_append_cons_of_mem hafter
        refine ⟨r, rest.splitOn '\n', ?_⟩
        rw [← List.append_assoc]
        exact List.splitOn_append_cons_self_of_not_mem (by simp [hlf, hr]) rest
      · exact ⟨after, [], List.splitOn_eq_singleton (by simp [hlf, hafter])⟩
    -- Cutting the text at the end of `before` makes this line one of its own.
    obtain ⟨r, rest, hsplit⟩ := hfirst
    refine ⟨m ++ r, ?_, startsMain_iff.2 ⟨m, r, rfl, hm⟩⟩
    rw [htext, List.append_assoc]
    rcases hbefore with rfl | hbefore
    · rw [List.nil_append, hsplit]
      exact List.mem_cons_self
    · obtain ⟨b, rfl⟩ := List.getLast?_eq_some_iff.1 hbefore
      rw [List.append_assoc, List.singleton_append, List.splitOn_append_cons_self, hsplit]
      exact List.mem_append_right _ List.mem_cons_self

/-- Lines before a text and anything after it leave its entry point in sight. -/
theorem hasMain_append {a b c : String} (h : hasMain b) (ha : EndsLine a.toList) :
    hasMain (a ++ b ++ c) := by
  obtain ⟨before, m, after, hb, hbefore, hm⟩ := hasMain_iff.1 h
  refine hasMain_iff.2 ⟨a.toList ++ before, m, after ++ c.toList, ?_, ha.append hbefore, hm⟩
  simp [hb]

/-- No line break belongs to a head of `main`. -/
theorem hasMain_trimBreaks {text : String} (h : hasMain text) :
    hasMain (String.ofList (Text.trimBreaks text.toList)) := by
  obtain ⟨before, m, after, htext, hbefore, hm⟩ := hasMain_iff.1 h
  obtain ⟨front, rfl⟩ := List.getLast?_eq_some_iff.1 (getLast?_of_isMainHead hm)
  refine hasMain_iff.2 ⟨before, front ++ [')'], Text.trimBreaks after, ?_, hbefore, hm⟩
  rw [String.toList_ofList, htext]
  have := Text.dropEndWhile_append_cons_of_neg (before ++ front) after
    (show Text.isLineBreak ')' = false by decide)
  simpa [Text.trimBreaks] using this

/-- What is wrapped has an entry point. -/
theorem hasMain_wrapMain (body : String) : hasMain (wrapMain body) := by
  refine hasMain_iff.2 ⟨[], ['f', 'u', 'n', 'c', ' ', 'm', 'a', 'i', 'n', '(', ')'],
    " \x7b\n".toList ++ Text.trimBreaks body.toList ++ "\n\x7d".toList, ?_, .inl rfl,
    [], [' '], [], [], rfl, by simp, by simp⟩
  rw [wrapMain]
  simp

end GoCell.Go
