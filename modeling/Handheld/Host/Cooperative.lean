import Handheld.Host
import Handheld.Scheduler

/-!
# The cooperative host

One thread goes round: it polls the input and delivers its events inline, lets the scheduler run
until it yields, and draws the frame (`Cooperative.round`). It stops when asked to quit, when the
board ends, or when the terminal fails; nothing runs after that.
-/

namespace Handheld

/-- A scheduler with its host on one thread. -/
structure Cooperative (σ ι : Type) where
  scheduler : Scheduler σ
  input : ι
  album : Album := {}
  /-- The polls made so far. -/
  polls : Nat := 0
  /-- The time on the wall. -/
  wall : Nat := 0
  deriving DecidableEq, Repr

namespace Cooperative

variable {σ ι : Type} [Board σ] [Input ι]

/-- What came of a round. -/
inductive Round (σ ι : Type)
  | again (host : Cooperative σ ι)
  | stopped (result : Except HostError Exit) (host : Cooperative σ ι)
  /-- More steps were needed than allowed. -/
  | outOfSteps
  deriving Repr

/-- Deliver events in order up to a request to quit, with whether there was one. -/
def deliver (s : Scheduler σ) : List HostEvent → Bool × Scheduler σ
  | [] => (false, s)
  | .quit :: _ => (true, s)
  | .button event :: events => deliver (s.input event).2 events

/-- Draw the frame that was published last. -/
def present (host : Cooperative σ ι) : Round σ ι :=
  match host.album.draw host.scheduler.published with
  | .error reason => .stopped (.error (.terminal reason)) host
  | .ok album => .again { host with album }

/-- Let the scheduler run until it yields or ends, at most `limit` steps. -/
def simulate (host : Cooperative σ ι) (limit : Nat) : Except Fault (Round σ ι) := do
  match ← host.scheduler.idle host.wall limit with
  | none => return .outOfSteps
  | some idle =>
    let host := { host with scheduler := idle.scheduler, wall := idle.wall }
    match idle.outcome with
    | .proceed => return .again host
    | .yield => return host.present
    | .ended state => return .stopped (.ok (.ended state)) host

/-- Go round once, with at most `limit` steps. -/
def round (host : Cooperative σ ι) (limit : Nat) : Except Fault (Round σ ι) :=
  let (polled, input) := Input.poll host.input host.wall
  let host := { host with input, polls := host.polls + 1 }
  match polled with
  | .error reason => .ok (.stopped (.error (.terminal reason)) host)
  | .ok events =>
    let (quit, scheduler) := deliver host.scheduler events
    let host := { host with scheduler }
    if quit then .ok (.stopped (.ok .quit) host) else host.simulate limit

/-- Go round until the loop stops, at most `rounds` times and with at most `limit` steps in each;
    `none` if that was not enough. -/
def run (host : Cooperative σ ι) (limit : Nat) :
    (rounds : Nat) → Except Fault (Option (Except HostError Exit × Cooperative σ ι))
  | 0 => .ok none
  | rounds + 1 => do
    match ← host.round limit with
    | .again host => host.run limit rounds
    | .stopped result host => return some (result, host)
    | .outOfSteps => return none

end Cooperative

end Handheld
