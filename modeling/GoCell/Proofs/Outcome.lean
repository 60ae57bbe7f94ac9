import Mathlib.Data.List.Forall2

/-!
What the success of a computation that may fail says about its steps.
-/

namespace GoCell

variable {ε α β : Type}

theorem bind_eq_ok_iff {x : Except ε α} {f : α → Except ε β} {b : β} :
    (x >>= f) = .ok b ↔ ∃ a, x = .ok a ∧ f a = .ok b := by
  cases x with
  | error e => simp [bind, Except.bind]
  | ok a => simp [bind, Except.bind]

theorem map_eq_ok_iff {x : Except ε α} {f : α → β} {b : β} :
    x.map f = .ok b ↔ ∃ a, x = .ok a ∧ f a = b := by
  cases x with
  | error e => simp [Except.map]
  | ok a => simp [Except.map]

theorem ok_bind (a : α) (f : α → Except ε β) : (Except.ok a >>= f) = f a := rfl

theorem bind_eq_error_iff {x : Except ε α} {f : α → Except ε β} {e : ε} :
    (x >>= f) = .error e ↔ x = .error e ∨ ∃ a, x = .ok a ∧ f a = .error e := by
  cases x with
  | error e' => simp [bind, Except.bind]
  | ok a => simp [bind, Except.bind]

theorem map_eq_error_iff {x : Except ε α} {f : α → β} {e : ε} :
    x.map f = .error e ↔ x = .error e := by
  cases x with
  | error e' => simp [Except.map]
  | ok a => simp [Except.map]

theorem exists_eq_ok_iff {x : Except ε α} : (∃ a, x = .ok a) ↔ ∀ e, x ≠ .error e := by
  cases x with
  | error e => simp
  | ok a => simp

theorem toOption_map (x : Except ε α) (f : α → β) : (x.map f).toOption = x.toOption.map f := by
  cases x <;> rfl

theorem toOption_bind (x : Except ε α) (f : α → Except ε β) :
    (x >>= f).toOption = x.toOption.bind fun a => (f a).toOption := by
  cases x <;> rfl

/-- Results can be compared where errors cannot. -/
theorem eq_ok_of_toOption {x : Except ε α} {a : α} (h : x.toOption = some a) : x = .ok a := by
  cases x with
  | error e => cases h
  | ok b => exact congrArg Except.ok (Option.some.inj h)

theorem toOption_eq_some_iff {x : Except ε α} {a : α} : x.toOption = some a ↔ x = .ok a :=
  ⟨eq_ok_of_toOption, fun h => h ▸ rfl⟩

theorem exists_eq_ok_of_isSome {x : Except ε α} (h : x.toOption.isSome) : ∃ a, x = .ok a := by
  cases x with
  | error e => cases h
  | ok a => exact ⟨a, rfl⟩

/-- A list of steps succeeds when each step does, with the list of their results. -/
theorem mapM_eq_ok_iff {f : α → Except ε β} {as : List α} {bs : List β} :
    as.mapM f = .ok bs ↔ List.Forall₂ (fun a b => f a = .ok b) as bs := by
  induction as generalizing bs with
  | nil =>
      cases bs with
      | nil => simp [pure, Except.pure]
      | cons b bs => simp [pure, Except.pure]
  | cons a as ih =>
      rw [List.mapM_cons, bind_eq_ok_iff]
      cases bs with
      | nil => simp [bind_eq_ok_iff, pure, Except.pure]
      | cons b bs => simp [bind_eq_ok_iff, pure, Except.pure, ih]

/-- Whether the first element of a list for which there is a reason has this one. -/
def FirstFails (reason : α → ε → Prop) (as : List α) (e : ε) : Prop :=
  ∃ before a after, as = before ++ a :: after ∧ (∀ b ∈ before, ∀ e', ¬reason b e') ∧ reason a e

theorem firstFails_cons {reason : α → ε → Prop} {a : α} {as : List α} {e : ε} :
    FirstFails reason (a :: as) e ↔
      reason a e ∨ (∀ e', ¬reason a e') ∧ FirstFails reason as e := by
  constructor
  · rintro ⟨before, b, after, hsplit, hbefore, hb⟩
    cases before with
    | nil =>
        obtain ⟨rfl, -⟩ := List.cons.inj hsplit
        exact .inl hb
    | cons a' before =>
        obtain ⟨rfl, hrest⟩ := List.cons.inj hsplit
        rw [List.forall_mem_cons] at hbefore
        exact .inr ⟨hbefore.1, before, b, after, hrest, hbefore.2, hb⟩
  · rintro (ha | ⟨ha, before, b, after, rfl, hbefore, hb⟩)
    · exact ⟨[], a, as, rfl, by simp, ha⟩
    · exact ⟨a :: before, b, after, rfl, List.forall_mem_cons.2 ⟨ha, hbefore⟩, hb⟩

theorem forall_not_firstFails_iff {reason : α → ε → Prop} {as : List α} :
    (∀ e, ¬FirstFails reason as e) ↔ ∀ a ∈ as, ∀ e, ¬reason a e := by
  induction as with
  | nil => simp [FirstFails]
  | cons a as ih =>
      simp only [firstFails_cons, not_or, not_and, List.forall_mem_cons, ← ih]
      exact ⟨fun h => ⟨fun e => (h e).1, fun e => (h e).2 fun e' => (h e').1⟩,
        fun h e => ⟨h.1 e, fun _ => h.2 e⟩⟩

theorem firstFails_congr {reason reason' : α → ε → Prop} {as : List α} {e : ε}
    (h : ∀ a ∈ as, ∀ e, reason a e ↔ reason' a e) :
    FirstFails reason as e ↔ FirstFails reason' as e := by
  induction as with
  | nil => simp [FirstFails]
  | cons a as ih =>
      rw [List.forall_mem_cons] at h
      simp only [firstFails_cons, h.1, ih h.2]

/-- A list of steps fails as the first step that fails. -/
theorem mapM_eq_error_iff {f : α → Except ε β} {reason : α → ε → Prop}
    (hreason : ∀ a e, f a = .error e ↔ reason a e) {as : List α} {e : ε} :
    as.mapM f = .error e ↔ FirstFails reason as e := by
  induction as with
  | nil => simp [FirstFails, pure, Except.pure]
  | cons a as ih =>
      have hpasses : (∃ b, f a = .ok b) ↔ ∀ e, ¬reason a e := by
        simp only [exists_eq_ok_iff, ne_eq, hreason]
      rw [List.mapM_cons, bind_eq_error_iff, firstFails_cons, ← hpasses, hreason]
      refine or_congr_right ?_
      simp only [bind_eq_error_iff, ih, pure, Except.pure, reduceCtorEq, and_false, exists_false,
        or_false, exists_and_right]

/-! ### Two computations side by side -/

/-- Whether one computation ends as another does, or else refuses with an error of a
certain kind. -/
def EqUnless (refusal : ε → Prop) (x y : Except ε α) : Prop :=
  x = y ∨ ∃ e, refusal e ∧ x = .error e

namespace EqUnless

variable {refusal : ε → Prop}

theorem bind {x y : Except ε α} {f g : α → Except ε β} (h : EqUnless refusal x y)
    (hfg : ∀ a, EqUnless refusal (f a) (g a)) : EqUnless refusal (x >>= f) (y >>= g) := by
  rcases h with rfl | ⟨e, he, rfl⟩
  · cases x with
    | error e => exact .inl rfl
    | ok a => exact hfg a
  · exact .inr ⟨e, he, rfl⟩

theorem map {x y : Except ε α} (h : EqUnless refusal x y) (f : α → β) :
    EqUnless refusal (x.map f) (y.map f) := by
  rcases h with rfl | ⟨e, he, rfl⟩
  · exact .inl rfl
  · exact .inr ⟨e, he, rfl⟩

theorem mapM {f g : α → Except ε β} {as : List α} (h : ∀ a ∈ as, EqUnless refusal (f a) (g a)) :
    EqUnless refusal (as.mapM f) (as.mapM g) := by
  induction as with
  | nil => exact .inl rfl
  | cons a as ih =>
      rw [List.forall_mem_cons] at h
      rw [List.mapM_cons, List.mapM_cons]
      exact h.1.bind fun b => (ih h.2).bind fun bs => .inl rfl

/-- A result is a result of the other one too. -/
theorem eq_ok {x y : Except ε α} {a : α} (h : EqUnless refusal x y) (hx : x = .ok a) :
    y = .ok a := by
  rcases h with rfl | ⟨e, -, rfl⟩
  · exact hx
  · cases hx

end EqUnless

/-! ### Elements and their results -/

theorem exists_getElem?_of_forall₂ {R : α → β → Prop} {as : List α} {bs : List β} {i : Nat} {a : α}
    (h : List.Forall₂ R as bs) (ha : as[i]? = some a) : ∃ b, bs[i]? = some b ∧ R a b := by
  induction h generalizing i with
  | nil => simp at ha
  | @cons a' b' as bs hab _ ih =>
      cases i with
      | zero =>
          obtain rfl : a' = a := by simpa using ha
          exact ⟨b', rfl, hab⟩
      | succ i => exact ih (by simpa using ha)

theorem exists_forall₂_of_forall_mem {R : α → β → Prop} {as : List α} (h : ∀ a ∈ as, ∃ b, R a b) :
    ∃ bs, List.Forall₂ R as bs := by
  induction as with
  | nil => exact ⟨[], .nil⟩
  | cons a as ih =>
      obtain ⟨⟨b, hb⟩, hrest⟩ := List.forall_mem_cons.1 h
      obtain ⟨bs, hbs⟩ := ih hrest
      exact ⟨b :: bs, .cons hb hbs⟩

/-- What a result has from its own step, all results have. -/
theorem forall_mem_of_forall₂ {R : α → β → Prop} {P : β → Prop} {as : List α} {bs : List β}
    (h : List.Forall₂ R as bs) (hR : ∀ a b, R a b → P b) : ∀ b ∈ bs, P b := by
  induction h with
  | nil => simp
  | cons hab _ ih => exact List.forall_mem_cons.2 ⟨hR _ _ hab, ih⟩

end GoCell
