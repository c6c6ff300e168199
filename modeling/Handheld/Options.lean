import Handheld.Channel
import Handheld.Settings

/-!
# Options

What a player can choose on the command line, with its defaults, and what follows from the choice:
the settings of the scheduler, the way input is delivered, and how long a key must be quiet before
it counts as let go. Periods and durations are in the units of their names.
-/

namespace Handheld

/-- How the simulation and the host share the machine. -/
inductive Mode
  /-- One thread takes turns between the two. -/
  | cooperative
  /-- The simulation has a thread of its own, and input crosses over a queue. -/
  | threaded
  deriving DecidableEq, Repr

/-- The choices of a player. -/
structure Options where
  mode : Mode := .cooperative
  burstCycles : Nat := 16000
  samplingMicros : Nat := 7572
  redrawMicros : Nat := 90864
  lumaDecay : UInt8 := Settings.defaultDecay
  lumaIncrease : UInt8 := Settings.defaultIncrease
  queueCapacity : Nat := 64
  frequency : Nat := 16000000
  unthrottled : Bool := false
  keyReleaseMillis : Nat := 400
  runForMillis : Option Nat := none
  deriving DecidableEq, Repr

namespace Options

/-- The settings of the scheduler. -/
def settings (options : Options) : Except SettingsError Settings := do
  let settings ← Settings.ofMicros options.frequency options.burstCycles options.samplingMicros
    options.redrawMicros
  return { settings with
    decay := options.lumaDecay
    increase := options.lumaIncrease
    throttle := !options.unthrottled }

/-- The way input is delivered. A queue must have room for an event. -/
def strategy (options : Options) : Except SettingsError Strategy :=
  match options.mode with
  | .cooperative => .ok .inline
  | .threaded =>
    if options.queueCapacity = 0 then .error .emptyQueue else .ok (.queued options.queueCapacity)

/-- The nanoseconds that a key must be quiet before it counts as let go. -/
def keyRelease (options : Options) : Nat := options.keyReleaseMillis * 1000000

/-- The cycle at which the demo board is to finish, if it is. The duration in microseconds is at
    most the largest word. -/
def haltAt (options : Options) (clock : Clock) : Option Nat :=
  options.runForMillis.map fun millis => clock.cyclesOfMicros (min (millis * 1000) wordMax)

end Options

end Handheld
