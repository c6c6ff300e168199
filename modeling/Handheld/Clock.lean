import Handheld.Settings.Error

/-!
# Simulated time

A clock ties the cycles of the board to the nanoseconds of the wall at a fixed frequency. The
conversions multiply before they divide and round down, so a count of cycles and its time differ by
less than one unit. Counts are kept in words of 64 bits: a time that does not fit becomes the
largest word, while a count of cycles keeps its low 64 bits.

Simulated time may fall behind the wall but never runs ahead of it: `Pace.residual` says how much of
a lead is left to sleep off.
-/

namespace Handheld

/-- The number of values of a word of 64 bits. -/
def wordSize : Nat := UInt64.size

/-- The largest word of 64 bits. -/
def wordMax : Nat := wordSize - 1

/-- The fastest frequency whose cycles can be told apart in nanoseconds. -/
def maxFrequency : Nat := 1000000000

/-- A clock, by the number of its cycles in a second. -/
@[ext] structure Clock where
  frequency : Nat
  frequency_pos : 0 < frequency
  frequency_le : frequency ≤ maxFrequency
  deriving Repr

namespace Clock

instance : DecidableEq Clock := fun _ _ => decidable_of_iff _ Clock.ext_iff.symm

/-- The clock of a frequency, if there is one. -/
def ofFrequency (hertz : Nat) : Except SettingsError Clock :=
  if h : 0 < hertz ∧ hertz ≤ maxFrequency then .ok ⟨hertz, h.1, h.2⟩ else .error (.frequency hertz)

/-- The nanoseconds that a number of cycles takes, at most the largest word. -/
def nanosOfCycles (clock : Clock) (cycles : Nat) : Nat :=
  min (cycles * 1000000000 / clock.frequency) wordMax

/-- The whole cycles in a number of nanoseconds. -/
def cyclesOfNanos (clock : Clock) (nanos : Nat) : Nat :=
  nanos * clock.frequency / 1000000000 % wordSize

/-- The whole cycles in a number of microseconds. -/
def cyclesOfMicros (clock : Clock) (micros : Nat) : Nat :=
  micros * clock.frequency / 1000000 % wordSize

end Clock

/-- How a moment of simulated time stands to the wall, in nanoseconds: it is still to come and is
    slept for, or it has passed. -/
inductive Pace
  | slept (nanos : Nat)
  | behind (nanos : Nat)
  deriving DecidableEq, Repr

namespace Pace

/-- The standing of a deadline when some time has passed, both counted from the same origin. -/
def residual (deadline elapsed : Nat) : Pace :=
  if deadline ≤ elapsed then .behind (elapsed - deadline) else .slept (deadline - elapsed)

/-- The time slept. -/
def nanos : Pace → Nat
  | .slept nanos => nanos
  | .behind _ => 0

/-- A deadline is met once its residual has been slept off. -/
theorem le_add_nanos_residual (deadline elapsed : Nat) :
    deadline ≤ elapsed + (residual deadline elapsed).nanos := by
  unfold residual
  split <;> simp only [nanos] <;> omega

end Pace

/-- The standing of a cycle at the wall time `now`, if cycle zero was at the wall time `epoch`. -/
def Clock.pace (clock : Clock) (epoch cycle now : Nat) : Pace :=
  .residual (clock.nanosOfCycles cycle) (min (now - epoch) wordMax)

end Handheld
