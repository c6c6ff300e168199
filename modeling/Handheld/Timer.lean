import Handheld.Fault

/-!
# Timers

A timer is keyed on the cycle counter of the board. It is looked at only between bursts, so it may
fire late; it then keeps its phase, `deadline + period`, as long as that lies ahead. A timer that
has fallen a whole period behind fires once and starts its period anew from the current cycle, so
a stall is never followed by a volley of firings.

Cycles, deadlines and periods are numbers without an upper end. The console counts them in words of
64 bits. It would take a run or a period of centuries to leave these, and what would come of that is
not told here.
-/

namespace Handheld

/-- What a timer is for. -/
inductive Task
  /-- Sample the panel into the afterglow. -/
  | sampling
  /-- Redraw the screen and give the host its turn. -/
  | redraw
  deriving DecidableEq, Repr

/-- A periodic timer with its next deadline. -/
@[ext] structure Timer where
  deadline : Nat
  period : Nat
  task : Task
  period_pos : 0 < period
  deriving Repr

namespace Timer

instance : DecidableEq Timer := fun _ _ => decidable_of_iff _ Timer.ext_iff.symm

/-- A timer that first fires one period after the cycle `now`. -/
def start (now period : Nat) (task : Task) (period_pos : 0 < period) : Timer :=
  { deadline := now + period, period, task, period_pos }

/-- A timer of any period; an empty one is a fault. -/
def start? (now period : Nat) (task : Task) : Except Fault Timer :=
  if h : 0 < period then .ok (start now period task h) else .error .emptyPeriod

/-- Whether a timer's deadline has been reached. -/
def isDue (timer : Timer) (cycle : Nat) : Bool := decide (timer.deadline ≤ cycle)

/-- The timer after it fired at a cycle. -/
def reschedule (timer : Timer) (cycle : Nat) : Timer :=
  let next := timer.deadline + timer.period
  { timer with deadline := if next ≤ cycle then cycle + timer.period else next }

end Timer

end Handheld
