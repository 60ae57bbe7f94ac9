import GoCell.Toolchain.Execution
import Mathlib.Data.List.Basic
import Mathlib.Logic.Relation

/-!
Waiting for a process, whatever it and the other processes of its group do, and in
whatever order. The time is looked at only as long as the process has not been seen to have
ended: up to then the time limit holds, and afterwards there is none.
-/

namespace GoCell

/-- A pipe from a process to the one that waits for it. -/
inductive Pipe
  | stdout
  | stderr

/-- What the one that waits is doing: sleeping until the next look, waiting for the readers of the
pipes after the process has been seen to have ended, waiting for all that it has killed, or
nothing more. -/
inductive Stage
  | polling (next : Duration)
  | joining (status : ExitStatus)
  | reaping
  | finished (outcome : Outcome)

/-- A moment of waiting for a process: the time since the start, how the process has ended, the
pipes that it holds and those that each other process of its group holds, what is being
waited for, whether the group has been killed, and what each look has seen, the last one first. -/
structure Scene where
  now : Duration := ⟨0⟩
  exited : Option ExitStatus := none
  child : Pipe → Bool := fun _ => true
  others : List (Pipe → Bool) := []
  stage : Stage := .polling ⟨0⟩
  killed : Bool := false
  looks : List (Option ExitStatus) := []

namespace Scene

variable {timeout : Duration} {s s' : Scene}

/-- Whether a process holds a pipe, so that its reader has not come to the end. -/
def Held (s : Scene) (pipe : Pipe) : Prop :=
  s.child pipe = true ∨ ∃ held ∈ s.others, held pipe = true

/-- Whether the one that waits has nothing to do up to a time. -/
def Idle (s : Scene) (time : Duration) : Prop :=
  match s.stage with
  | .polling next => time.nanos ≤ next.nanos
  | .joining _ => ∃ pipe, s.Held pipe
  | .reaping => s.exited = none ∨ ∃ pipe, s.Held pipe
  | .finished _ => True

/-- What can happen next. Looks take no time, and nobody sleeps for longer than until the next
look. -/
inductive Step (timeout : Duration) : Scene → Scene → Prop
  | pass {s : Scene} (time : Duration) (hafter : s.now.nanos ≤ time.nanos) (hidle : s.Idle time) :
      Step timeout s { s with now := time }
  | exit {s : Scene} (status : ExitStatus) (hrunning : s.exited = none) :
      Step timeout s { s with exited := some status, child := fun _ => false }
  | start {s : Scene} (parent held : Pipe → Bool)
      (hparent : s.exited = none ∧ parent = s.child ∨ parent ∈ s.others)
      (hheld : ∀ pipe, held pipe = true → parent pipe = true) (hkilled : s.killed = false) :
      Step timeout s { s with others := held :: s.others }
  | close {s : Scene} (before after : List (Pipe → Bool)) (held kept : Pipe → Bool)
      (hothers : s.others = before ++ held :: after)
      (hkept : ∀ pipe, kept pipe = true → held pipe = true) :
      Step timeout s { s with others := before ++ kept :: after }
  | leave {s : Scene} (before after : List (Pipe → Bool)) (held : Pipe → Bool)
      (hothers : s.others = before ++ held :: after) :
      Step timeout s { s with others := before ++ after }
  | see {s : Scene} (next : Duration) (status : ExitStatus) (hstage : s.stage = .polling next)
      (hdue : next.nanos ≤ s.now.nanos) (hexited : s.exited = some status) :
      Step timeout s { s with stage := .joining status, looks := some status :: s.looks }
  | kill {s : Scene} (next : Duration) (hstage : s.stage = .polling next)
      (hdue : next.nanos ≤ s.now.nanos) (hexited : s.exited = none)
      (htime : timeout.nanos ≤ s.now.nanos) :
      Step timeout s { s with stage := .reaping, killed := true, looks := none :: s.looks }
  | sleep {s : Scene} (next : Duration) (hstage : s.stage = .polling next)
      (hdue : next.nanos ≤ s.now.nanos) (hexited : s.exited = none)
      (htime : s.now.nanos < timeout.nanos) :
      Step timeout s
        { s with
          stage := .polling ⟨s.now.nanos + pollInterval.nanos⟩
          looks := none :: s.looks }
  | join {s : Scene} (status : ExitStatus) (hstage : s.stage = .joining status)
      (hclosed : ∀ pipe, ¬s.Held pipe) :
      Step timeout s { s with stage := .finished (.ended status) }
  | reap {s : Scene} (hstage : s.stage = .reaping) (hexited : s.exited ≠ none)
      (hclosed : ∀ pipe, ¬s.Held pipe) :
      Step timeout s { s with stage := .finished .timedOut }

/-- Whether a moment can come. -/
def Reachable (timeout : Duration) (s : Scene) : Prop :=
  Relation.ReflTransGen (Step timeout) {} s

/-! ### What holds at all times -/

/-- What is known of the process and of the time from what is being waited for. -/
structure Sound (timeout : Duration) (s : Scene) : Prop where
  polling : ∀ next, s.stage = .polling next →
    s.now.nanos ≤ next.nanos ∧ next.nanos < timeout.nanos + pollInterval.nanos
  killed_iff : s.killed = true ↔ s.stage = .reaping ∨ s.stage = .finished .timedOut
  unseen : (∀ status, s.stage ≠ .joining status ∧ s.stage ≠ .finished (.ended status)) →
    ∀ look ∈ s.looks, look = none
  seen : ∀ status, s.stage = .joining status ∨ s.stage = .finished (.ended status) →
    s.exited = some status ∧ some status ∈ s.looks
  released : s.exited ≠ none → ∀ pipe, s.child pipe = false

theorem sound_start (timeout : Duration) : Sound timeout {} where
  polling := by
    rintro next ⟨⟩
    exact ⟨Nat.le_refl 0, Nat.lt_of_lt_of_le (by decide) (Nat.le_add_left _ _)⟩
  killed_iff := by simp
  unseen := by simp
  seen := by simp
  released := by simp

theorem Step.sound (h : Step timeout s s') (hs : Sound timeout s) : Sound timeout s' := by
  obtain ⟨hpolling, hkilled, hunseen, hseen, hreleased⟩ := hs
  cases h with
  | pass time hafter hidle =>
      refine ⟨fun next hstage => ?_, hkilled, hunseen, hseen, hreleased⟩
      rw [Idle, hstage] at hidle
      exact ⟨hidle, (hpolling next hstage).2⟩
  | exit status hrunning =>
      refine ⟨hpolling, hkilled, hunseen, fun status' hstage => ?_, fun _ _ => rfl⟩
      rw [(hseen status' hstage).1] at hrunning
      cases hrunning
  | start parent held hparent hheld hnotKilled =>
      exact ⟨hpolling, hkilled, hunseen, hseen, hreleased⟩
  | close before after held kept hothers hkept =>
      exact ⟨hpolling, hkilled, hunseen, hseen, hreleased⟩
  | leave before after held hothers => exact ⟨hpolling, hkilled, hunseen, hseen, hreleased⟩
  | see next status hstage hdue hexited =>
      refine ⟨by simp, by simpa [hstage] using hkilled, fun h => ?_, ?_, hreleased⟩
      · exact absurd rfl (h status).1
      · simp [hexited]
  | kill next hstage hdue hexited htime =>
      refine ⟨by simp, by simp, fun _ => ?_, by simp, hreleased⟩
      exact List.forall_mem_cons.2 ⟨rfl, hunseen (by simp [hstage])⟩
  | sleep next hstage hdue hexited htime =>
      refine ⟨?_, by simpa [hstage] using hkilled, fun _ => ?_, by simp, hreleased⟩
      · rintro _ ⟨⟩
        exact ⟨Nat.le_add_right _ _, Nat.add_lt_add_right htime _⟩
      · exact List.forall_mem_cons.2 ⟨rfl, hunseen (by simp [hstage])⟩
  | join status hstage hclosed =>
      refine ⟨by simp, by simpa [hstage] using hkilled, fun h => ?_, ?_, hreleased⟩
      · exact absurd rfl (h status).2
      · rintro status' (h | h)
        · cases h
        · cases h
          exact hseen status (.inl hstage)
  | reap hstage hexited hclosed =>
      refine ⟨by simp, by simpa [hstage] using hkilled, fun _ => ?_, by simp, hreleased⟩
      exact hunseen (by simp [hstage])

theorem Reachable.sound (h : Reachable timeout s) : Sound timeout s := by
  induction h with
  | refl => exact sound_start timeout
  | tail _ hstep ih => exact hstep.sound ih

end Scene

end GoCell
