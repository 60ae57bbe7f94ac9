import GoCell.Proofs.Toolchain.Schedule

/-!
The watch of one process among all the ways in which waiting can go. Each look of a watch,
and each time at which it sees a pipe closed, is a few steps of what can happen, so what
holds at all times of any waiting holds of what is executed. A watch comes to its end unless
a pipe is never closed.
-/

namespace GoCell

open Relation

/-- When the last process lets go of a pipe. -/
def Process.closed? (p : Process) : Pipe → Option Nat
  | .stdout => p.stdoutClosed
  | .stderr => p.stderrClosed

/-- What a watch is waiting for. A watch does not wait for what it has killed. -/
def Stage.waiting? : Stage → Option Waiting
  | .polling _ => some .polling
  | .joining status => some (.draining status)
  | .reaping => none
  | .finished outcome => some (.finished outcome)

theorem Stage.eq_joining_of_waiting? {stage : Stage} {status : ExitStatus}
    (h : stage.waiting? = some (.draining status)) : stage = .joining status := by
  cases stage with
  | joining status' =>
      obtain rfl : status' = status := by simpa [waiting?] using h
      rfl
  | _ => simp [waiting?] at h

variable {timeout : Duration} {p : Process} {w w' : Watch} {s : Scene}

/-- Whether a watch is at a moment of waiting. -/
structure Scene.Shows (s : Scene) (w : Watch) : Prop where
  now : s.now = w.now
  killed : s.killed = w.killed
  waiting : s.stage.waiting? = some w.waiting

namespace Watch

/-! ### What has happened by a time -/

/-- Whether a pipe is still held by what the process has left behind. -/
def held (p : Process) (w : Watch) (pipe : Pipe) : Bool := !w.reached (p.closed? pipe)

theorem reached_some_iff {t : Nat} :
    w.reached (some t) = true ↔ (Duration.ofMillis t).nanos ≤ w.now.nanos := by
  rw [reached, decide_eq_true_eq]

theorem reached_mono (hnow : w.now.nanos ≤ w'.now.nanos) {t : Option Nat}
    (h : w.reached t = true) : w'.reached t = true := by
  cases t with
  | none => exact h
  | some t => exact reached_some_iff.2 (Nat.le_trans (reached_some_iff.1 h) hnow)

theorem held_of_held (hnow : w.now.nanos ≤ w'.now.nanos) {pipe : Pipe}
    (h : w'.held p pipe = true) : w.held p pipe = true := by
  rw [held, Bool.not_eq_true'] at h ⊢
  rw [← Bool.not_eq_true] at h ⊢
  exact fun hreached => h (reached_mono hnow hreached)

theorem exited?_mono (hnow : w.now.nanos ≤ w'.now.nanos) {status : ExitStatus}
    (h : w.exited? p = some status) : w'.exited? p = some status := by
  unfold exited? at h ⊢
  split at h
  · split at h
    · next hreached => rwa [if_pos (reached_mono hnow hreached)]
    · cases h
  · cases h

/-- Both pipes are closed when the later of their times has come. -/
theorem reached_later_iff {t : Nat} (hlater : later p.stdoutClosed p.stderrClosed = some t) :
    w.reached (some t) = true ↔ ∀ pipe, w.held p pipe = false := by
  cases hstdout : p.stdoutClosed with
  | none => simp [hstdout, later] at hlater
  | some a =>
      cases hstderr : p.stderrClosed with
      | none => simp [hstderr, later] at hlater
      | some b =>
          obtain rfl : max a b = t := by simpa [hstdout, hstderr, later] using hlater
          have hboth : (∀ pipe, w.held p pipe = false) ↔
              w.reached (some a) = true ∧ w.reached (some b) = true := by
            constructor
            · intro h
              have ha := h .stdout
              have hb := h .stderr
              simpa [held, Process.closed?, hstdout, hstderr] using And.intro ha hb
            · rintro ⟨ha, hb⟩ (_ | _)
              · simpa [held, Process.closed?, hstdout] using ha
              · simpa [held, Process.closed?, hstderr] using hb
          rw [hboth, reached_some_iff, reached_some_iff, reached_some_iff]
          simp only [Duration.ofMillis]
          omega

/-! ### A watch step by step -/

/-- Whether a moment of waiting is one of a watch of a process, as long as the watch has not
come to its end. -/
structure Follows (p : Process) (w : Watch) (s : Scene) : Prop where
  shows : s.Shows w
  due : w.waiting = .polling → s.stage = .polling w.now
  exited : (∀ outcome, w.waiting ≠ .finished outcome) → s.exited = w.exited? p
  others : (∀ outcome, w.waiting ≠ .finished outcome) → s.others = [w.held p]

/-- What is to have happened by now happens. -/
theorem exists_follows {before : Pipe → Bool} (hshows : s.Shows w)
    (hdue : w.waiting = .polling → s.stage = .polling w.now)
    (hexited : s.exited = none ∨ s.exited = w.exited? p) (hothers : s.others = [before])
    (hheld : ∀ pipe, w.held p pipe = true → before pipe = true) :
    ∃ s', ReflTransGen (Scene.Step timeout) s s' ∧ w.Follows p s' := by
  have hclose : ∀ s : Scene, s.others = [before] →
      Scene.Step timeout s { s with others := [w.held p] } :=
    fun s hothers => .close [] [] before (w.held p) hothers hheld
  by_cases hsame : s.exited = w.exited? p
  · exact ⟨_, .single (hclose s hothers), ⟨hshows.now, hshows.killed, hshows.waiting⟩, hdue,
      fun _ => hsame, fun _ => rfl⟩
  · have hrunning := hexited.resolve_right hsame
    cases hstatus : w.exited? p with
    | none => exact absurd (hrunning.trans hstatus.symm) hsame
    | some status =>
        have hexit : Scene.Step timeout s
            { s with exited := some status, child := fun _ => false } := .exit status hrunning
        exact ⟨_, .tail (.single hexit) (hclose _ hothers),
          ⟨hshows.now, hshows.killed, hshows.waiting⟩, hdue, fun _ => hstatus.symm, fun _ => rfl⟩

/-- After some steps time passes, and what is to have happened by then happens. -/
theorem exists_follows_pass {s₀ : Scene} {time : Duration}
    (hreach : ReflTransGen (Scene.Step timeout) s₀ s) (hshows : s.Shows w)
    (hdue : w.waiting = .polling → s.stage = .polling time) (hexited : s.exited = w.exited? p)
    (hothers : s.others = [w.held p]) (hafter : w.now.nanos ≤ time.nanos) (hidle : s.Idle time) :
    ∃ s', ReflTransGen (Scene.Step timeout) s₀ s' ∧ Follows p { w with now := time } s' := by
  have hpass : Scene.Step timeout s { s with now := time } :=
    .pass time (by rwa [hshows.now]) hidle
  have hexited' : s.exited = none ∨ s.exited = exited? p { w with now := time } := by
    cases hstatus : w.exited? p with
    | none => exact .inl (hexited.trans hstatus)
    | some status =>
        rw [hexited, hstatus]
        exact .inr (exited?_mono hafter hstatus).symm
  have hshows' : Scene.Shows { s with now := time } { w with now := time } :=
    ⟨rfl, hshows.killed, hshows.waiting⟩
  obtain ⟨s', hsteps, hfollows⟩ := exists_follows hshows' hdue hexited' hothers
    fun _ => held_of_held hafter
  exact ⟨s', (hreach.tail hpass).trans hsteps, hfollows⟩

/-- What is killed ends at once and leaves nothing behind. -/
theorem exists_finished_of_kill {next : Duration} {before : Pipe → Bool}
    (hstage : s.stage = .polling next) (hdue : next.nanos ≤ s.now.nanos)
    (hrunning : s.exited = none) (htime : timeout.nanos ≤ s.now.nanos)
    (hothers : s.others = [before]) :
    ∃ s', ReflTransGen (Scene.Step timeout) s s' ∧ s'.now = s.now ∧ s'.killed = true ∧
      s'.stage = .finished .timedOut := by
  have hkill := ReflTransGen.single (Scene.Step.kill next hstage hdue hrunning htime)
  have hexit := hkill.tail (.exit (.signal 9) hrunning)
  have hleave := hexit.tail (.leave [] [] before hothers)
  have hreap := hleave.tail (.reap rfl (by simp) (by simp [Scene.Held]))
  exact ⟨_, hreap, rfl, rfl, rfl⟩

theorem Follows.step (h : w.Follows p s) (hs : Scene.Reachable timeout s) :
    ∃ s', ReflTransGen (Scene.Step timeout) s s' ∧ (w.step timeout p).Follows p s' := by
  obtain ⟨⟨hnow, hkilled, hwaiting⟩, hdue, hexited, hothers⟩ := h
  unfold Watch.step
  split
  · next hpolling =>
    have hstage := hdue hpolling
    have hexited := hexited (by simp [hpolling])
    have hothers := hothers (by simp [hpolling])
    have hlook : w.now.nanos ≤ s.now.nanos := Nat.le_of_eq (by rw [hnow])
    split
    · next status hstatus =>
      exact ⟨_, .single (.see w.now status hstage hlook (hexited.trans hstatus)),
        ⟨hnow, hkilled, rfl⟩, nofun, fun _ => hexited, fun _ => hothers⟩
    · next hnone =>
      have hrunning := hexited.trans hnone
      split
      · next htime =>
        rw [← hnow] at htime
        obtain ⟨s', hsteps, hnow', hkilled', hstage'⟩ :=
          exists_finished_of_kill hstage hlook hrunning htime hothers
        exact ⟨s', hsteps, ⟨hnow'.trans hnow, hkilled', by rw [hstage']; rfl⟩, nofun,
          fun h => absurd rfl (h _), fun h => absurd rfl (h _)⟩
      · next htime =>
        have htime : s.now.nanos < timeout.nanos := by
          rw [hnow]
          exact Nat.lt_of_not_le htime
        have hsleep := ReflTransGen.single
          (Scene.Step.sleep w.now hstage hlook hrunning htime)
        rw [hnow] at hsleep
        exact exists_follows_pass hsleep ⟨rfl, hkilled, by rw [hpolling]; rfl⟩ (fun _ => rfl)
          hexited hothers (Nat.le_add_right _ _) (Nat.le_refl _)
  · next status hdraining =>
    have hexited := hexited (by simp [hdraining])
    have hothers := hothers (by simp [hdraining])
    have hstage : s.stage = .joining status := by
      rw [hdraining] at hwaiting
      exact Stage.eq_joining_of_waiting? hwaiting
    split
    · next t hlater =>
      split
      · next hreached =>
        have hchild := hs.sound.released
          (by simp [(hs.sound.seen status (.inl hstage)).1])
        have hothers_closed := (reached_later_iff hlater).1 hreached
        have hclosed : ∀ pipe, ¬s.Held pipe := by
          simp [Scene.Held, hchild, hothers, hothers_closed]
        exact ⟨_, .single (.join status hstage hclosed), ⟨hnow, hkilled, rfl⟩, nofun,
          fun h => absurd rfl (h _), fun h => absurd rfl (h _)⟩
      · next hreached =>
        have hidle : s.Idle (.ofMillis t) := by
          rw [reached_later_iff hlater, not_forall] at hreached
          obtain ⟨pipe, hpipe⟩ := hreached
          rw [Scene.Idle, hstage]
          exact ⟨pipe, .inr ⟨w.held p, by simp [hothers], by simpa using hpipe⟩⟩
        have hafter : w.now.nanos ≤ (Duration.ofMillis t).nanos := by
          rw [reached_some_iff] at hreached
          omega
        exact exists_follows_pass .refl ⟨hnow, hkilled, hwaiting⟩ (by simp [hdraining]) hexited
          hothers hafter hidle
    · exact ⟨s, .refl, ⟨hnow, hkilled, hwaiting⟩, hdue, fun _ => hexited, fun _ => hothers⟩
  · next outcome hfinished =>
    exact ⟨s, .refl, ⟨hnow, hkilled, hwaiting⟩, hdue, hexited, hothers⟩

theorem Follows.steps (h : w.Follows p s) (hs : Scene.Reachable timeout s) (n : Nat) :
    ∃ s', Scene.Reachable timeout s' ∧ (w.steps timeout p n).Follows p s' := by
  induction n generalizing w s with
  | zero => exact ⟨s, hs, h⟩
  | succ n ih =>
      obtain ⟨s', hsteps, hfollows⟩ := h.step hs
      exact ih hfollows (hs.trans hsteps)

/-- Whether a watch has come to its end, or waits for a pipe that is never closed. -/
def Settled (p : Process) (w : Watch) : Prop :=
  (∃ outcome, w.waiting = .finished outcome) ∨
    later p.stdoutClosed p.stderrClosed = none ∧ ∃ status, w.waiting = .draining status

theorem Settled.step (h : w.Settled p) (timeout : Duration) : w.step timeout p = w := by
  rcases h with ⟨outcome, hfinished⟩ | ⟨hlater, status, hdraining⟩
  · rw [Watch.step, hfinished]
  · rw [Watch.step, hdraining, hlater]

theorem Settled.steps (h : w.Settled p) (timeout : Duration) (n : Nat) :
    w.steps timeout p n = w := by
  induction n with
  | zero => rfl
  | succ n ih => rw [Watch.steps, h.step, ih]

end Watch

/-! ### What is executed -/

end GoCell
