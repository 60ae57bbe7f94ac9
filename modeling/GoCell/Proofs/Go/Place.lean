import GoCell.Proofs.Go.ClauseScan

/-!
What a character of a Go text is part of, by the lexical rules alone: code, a comment, or
a literal that holds text. The rules are an automaton, so the place after a text depends
on the place before it and on nothing else.
-/

namespace GoCell.Go

/-- A place in a Go text. A slash may begin a comment and a star may end one, so they have
places of their own. An interpreted text is between double quotes, or between single ones
if it is a rune. -/
inductive Place
  | code
  | slash
  | lineComment
  | blockComment
  | star
  | text (isRune : Bool)
  | escape (isRune : Bool)
  | raw
  deriving DecidableEq

namespace Place

/-- The place after a character that stands in code. -/
def opened (c : Char) : Place :=
  if c = '/' then .slash
  else if c = '"' then .text false
  else if c = '\'' then .text true
  else if c = '\x60' then .raw
  else .code

/-- The place after a character. A line end ends every interpreted text, finished or not. -/
def next : Place → Char → Place
  | .code, c => opened c
  | .slash, c => if c = '/' then .lineComment else if c = '*' then .blockComment else opened c
  | .lineComment, c => if c = '\n' then .code else .lineComment
  | .blockComment, c => if c = '*' then .star else .blockComment
  | .star, c => if c = '/' then .code else if c = '*' then .star else .blockComment
  | .text isRune, c =>
    if c = '\n' ∨ c = (if isRune then '\'' else '"') then .code
    else if c = '\\' then .escape isRune
    else .text isRune
  | .escape isRune, c => if c = '\n' then .code else .text isRune
  | .raw, c => if c = '\x60' then .code else .raw

/-- The place after a text. -/
def after (p : Place) (l : List Char) : Place := l.foldl next p

/-- Whether a place is outside of comments and texts. -/
def isCode : Place → Bool
  | .code | .slash => true
  | _ => false

/-- Whether a place is inside of a comment that can go on over lines. -/
def inBlockComment : Place → Bool
  | .blockComment | .star => true
  | _ => false

@[simp] theorem after_nil (p : Place) : p.after [] = p := rfl

@[simp] theorem after_cons (p : Place) (c : Char) (l : List Char) :
    p.after (c :: l) = (p.next c).after l := rfl

@[simp] theorem after_append (p : Place) (a b : List Char) :
    p.after (a ++ b) = (p.after a).after b := List.foldl_append

/-- A word in code leaves the scan in code. -/
theorem after_code_of_opened {l : List Char} (h : ∀ c ∈ l, opened c = .code) :
    Place.code.after l = .code := by
  induction l with
  | nil => rfl
  | cons c l ih =>
      rw [List.forall_mem_cons] at h
      rw [after_cons, next, h.1, ih h.2]

theorem opened_of_ne {c : Char} (h : c ∉ ['/', '"', '\'', '\x60']) : opened c = .code := by
  simp only [List.mem_cons, List.not_mem_nil, or_false, not_or] at h
  simp [opened, h]

theorem opened_of_isBlank {c : Char} (h : Text.isBlank c) : opened c = .code := by
  apply opened_of_ne
  intro hmem
  simp only [List.mem_cons, List.not_mem_nil, or_false] at hmem
  rcases hmem with rfl | rfl | rfl | rfl <;> exact absurd h (by decide)

theorem opened_of_isIdentChar {c : Char} (h : isIdentChar c) : opened c = .code := by
  apply opened_of_ne
  intro hmem
  simp only [List.mem_cons, List.not_mem_nil, or_false] at hmem
  rcases hmem with rfl | rfl | rfl | rfl <;> exact absurd h (by decide)

/-- Line breaks neither open nor close a comment that goes on over lines. -/
theorem inBlockComment_next {c : Char} (h : Text.isLineBreak c) (p : Place) :
    (p.next c).inBlockComment = p.inBlockComment := by
  rcases Text.isLineBreak_iff.1 h with rfl | rfl
  all_goals
    cases p with
    | text isRune => cases isRune <;> rfl
    | _ => rfl

theorem inBlockComment_after {l : List Char} (h : ∀ c ∈ l, Text.isLineBreak c) (p : Place) :
    (p.after l).inBlockComment = p.inBlockComment := by
  induction l generalizing p with
  | nil => rfl
  | cons c l ih =>
      rw [List.forall_mem_cons] at h
      rw [after_cons, ih h.2, inBlockComment_next h.1]

/-- Spaces and tabs neither open nor close anything. -/
theorem isCode_next {c : Char} (h : c = ' ' ∨ c = '\t') (p : Place) :
    (p.next c).isCode = p.isCode := by
  rcases h with rfl | rfl
  all_goals
    cases p with
    | text isRune => cases isRune <;> rfl
    | _ => rfl

theorem isCode_after {l : List Char} (h : ∀ c ∈ l, c = ' ' ∨ c = '\t') (p : Place) :
    (p.after l).isCode = p.isCode := by
  induction l generalizing p with
  | nil => rfl
  | cons c l ih =>
      rw [List.forall_mem_cons] at h
      rw [after_cons, ih h.2, isCode_next h.1]

theorem inBlockComment_opened (c : Char) : (opened c).inBlockComment = false := by
  unfold opened
  repeat' split
  all_goals rfl

theorem eq_of_opened_eq_slash {c : Char} (h : opened c = .slash) : c = '/' := by
  by_contra hc
  rw [opened, if_neg hc] at h
  repeat' split at h
  all_goals cases h

/-- Only a slash gives a place after a slash. -/
theorem eq_of_next_eq_slash {p : Place} {c : Char} (h : p.next c = .slash) : c = '/' := by
  cases p with
  | code => exact eq_of_opened_eq_slash h
  | slash =>
      rw [next] at h
      repeat' split at h
      · cases h
      · cases h
      · exact eq_of_opened_eq_slash h
  | _ =>
      rw [next] at h
      repeat' split at h
      all_goals cases h

theorem of_inBlockComment_next {p : Place} {c : Char} (h : (p.next c).inBlockComment) :
    p.inBlockComment ∨ p = .slash ∧ c = '*' := by
  cases p with
  | code => simp [next, inBlockComment_opened] at h
  | slash =>
      by_cases hc : c = '*'
      · exact .inr ⟨rfl, hc⟩
      · simp only [next, hc, if_false] at h
        split at h
        · cases h
        · simp [inBlockComment_opened] at h
  | blockComment => exact .inl rfl
  | star => exact .inl rfl
  | _ =>
      rw [next] at h
      repeat' split at h
      all_goals cases h

/-- A comment that goes on over lines is opened by its mark. -/
theorem of_inBlockComment_after {p : Place} {l : List Char} (h : (p.after l).inBlockComment) :
    p.inBlockComment ∨ (p = .slash ∧ ∃ r, l = '*' :: r) ∨ ∃ a r, l = a ++ '/' :: '*' :: r := by
  induction l generalizing p with
  | nil => exact .inl h
  | cons c l ih =>
      rcases ih h with hnext | ⟨hslash, r, rfl⟩ | ⟨a, r, rfl⟩
      · rcases of_inBlockComment_next hnext with hp | ⟨hp, rfl⟩
        · exact .inl hp
        · exact .inr (.inl ⟨hp, l, rfl⟩)
      · exact .inr (.inr ⟨[], r, by rw [eq_of_next_eq_slash hslash]; rfl⟩)
      · exact .inr (.inr ⟨c :: a, r, rfl⟩)

/-- At the start of a line only a comment or a raw text can go on. -/
theorem next_lf (p : Place) : p.next '\n' = .code ∨ p.next '\n' = .blockComment ∨
    p.next '\n' = .raw := by
  cases p with
  | text isRune => cases isRune <;> exact .inl rfl
  | code | slash | lineComment | escape => exact .inl rfl
  | blockComment | star => exact .inr (.inl rfl)
  | raw => exact .inr (.inr rfl)

theorem of_opened_eq_raw {c : Char} (h : opened c = .raw) : c = '\x60' := by
  unfold opened at h
  repeat' split at h
  all_goals first | assumption | cases h

theorem of_next_eq_raw {p : Place} {c : Char} (h : p.next c = .raw) : p = .raw ∨ c = '\x60' := by
  cases p with
  | raw => exact .inl rfl
  | code => exact .inr (of_opened_eq_raw h)
  | slash =>
      rw [next] at h
      repeat' split at h
      · cases h
      · cases h
      · exact .inr (of_opened_eq_raw h)
  | _ =>
      rw [next] at h
      repeat' split at h
      all_goals cases h

/-- A raw text is opened by its mark. -/
theorem of_after_eq_raw {p : Place} {l : List Char} (h : p.after l = .raw) :
    p = .raw ∨ '\x60' ∈ l := by
  induction l generalizing p with
  | nil => exact .inl h
  | cons c l ih =>
      rcases ih h with hnext | hmem
      · exact (of_next_eq_raw hnext).imp_right fun hc => by simp [hc]
      · exact .inr (List.mem_cons_of_mem _ hmem)

/-- After a star a comment goes on as before, unless it ends. -/
theorem star_next {c : Char} (h : c ≠ '/') : star.next c = blockComment.next c := by
  simp [next, h]

end Place

/-- The place of a scan for code. -/
def Lead.place : Lead → Place
  | .between => .code
  | .line => .lineComment
  | .block => .blockComment

/-- Blanks and whole comments end in code. -/
theorem Passes.after_eq_code {m : Lead} {lead : List Char} (h : Passes m lead) :
    m.place.after lead = .code := by
  induction h with
  | nil => rfl
  | blank hc _ ih =>
      rw [Lead.place, Place.after_cons, Place.next, Place.opened_of_isBlank hc]
      exact ih
  | openLine _ ih => exact ih
  | openBlock _ ih => exact ih
  | closeLine _ ih => exact ih
  | line hc _ ih =>
      rw [Lead.place, Place.after_cons, Place.next, if_neg hc]
      exact ih
  | closeBlock _ ih => exact ih
  | block hcd _ ih =>
      rw [Lead.place, Place.after_cons, Place.next]
      split
      · next hc =>
        rw [Place.after_cons, Place.star_next fun hd => hcd ⟨hc, hd⟩]
        exact ih
      · exact ih

end GoCell.Go
