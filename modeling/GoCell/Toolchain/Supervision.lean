import GoCell.Toolchain.Duration
import GoCell.Toolchain.Process

/-!
Waiting for a process. It is looked at every ten milliseconds. Once it has been seen
to have ended, its output is read until both pipes are closed; if it has not ended
and the time is up, its whole group is killed.
-/

namespace GoCell

/-- The time between two looks. -/
def pollInterval : Duration := .ofMillis 10

inductive Outcome
  | ended (status : ExitStatus)
  | timedOut
  deriving DecidableEq

/-- What the one that waits is doing. -/
inductive Waiting
  | polling
  | draining (status : ExitStatus)
  | finished (outcome : Outcome)
  deriving DecidableEq

/-- The time since the start, what is being waited for, and whether the group has
been killed. -/
structure Watch where
  now : Duration
  waiting : Waiting
  killed : Bool

namespace Watch

def start : Watch := ⟨⟨0⟩, .polling, false⟩

/-- Whether a time in milliseconds has come. -/
def reached (w : Watch) : Option Nat → Bool
  | some t => (Duration.ofMillis t).nanos ≤ w.now.nanos
  | none => false

/-- The status of a process that has ended by now. -/
def exited? (p : Process) (w : Watch) : Option ExitStatus :=
  match p.exit with
  | some (t, status) => if w.reached (some t) then some status else none
  | none => none

/-- One look at the process, or at its pipes once it has ended. -/
def step (timeout : Duration) (p : Process) (w : Watch) : Watch :=
  match w.waiting with
  | .polling =>
    match w.exited? p with
    | some status => { w with waiting := .draining status }
    | none =>
      if timeout.nanos ≤ w.now.nanos then
        { w with waiting := .finished .timedOut, killed := true }
      else { w with now := ⟨w.now.nanos + pollInterval.nanos⟩ }
  | .draining status =>
    match later p.stdoutClosed p.stderrClosed with
    | some t =>
      if w.reached (some t) then { w with waiting := .finished (.ended status) }
      else { w with now := .ofMillis t }
    | none => w
  | .finished _ => w

/-- Some steps. -/
def steps (timeout : Duration) (p : Process) : Nat → Watch → Watch
  | 0, w => w
  | n + 1, w => steps timeout p n (w.step timeout p)

end Watch

/-- The outcome of waiting; none where a pipe is held open for ever by what the
process has left behind. -/
def supervise (timeout : Duration) (p : Process) : Option Outcome :=
  match (Watch.start.steps timeout p (timeout.nanos / pollInterval.nanos + 5)).waiting with
  | .finished outcome => some outcome
  | _ => none

end GoCell
