/-!
# Faults

A fault is a broken promise between two parts of the console: a picture of the wrong size, an
index past the end of a grid, a board that failed. It is not an answer about the settings or the
terminal (those are `SettingsError` and `HostError`); whatever was running stops where it was.
-/

namespace Handheld

/-- The promises that can be broken. -/
inductive Fault
  /-- The afterglow was given a picture memory of another size than its own. -/
  | gridLength
  /-- A timer was asked to fire every zero cycles. -/
  | emptyPeriod
  /-- A panel was given a frame of another resolution than its own. -/
  | resolution
  /-- A grid of `length` cells has no cell `index`. -/
  | outOfBounds (length index : Nat)
  /-- The board itself broke down in the middle of a burst. -/
  | boardFailed
  deriving DecidableEq, Repr

/-- What is reported when a promise is broken. -/
def Fault.message : Fault → String
  | .gridLength => "PersistenceBuffer must be given exactly one byte per 8 pixels"
  | .emptyPeriod => "ScheduleEntry period must be at least one cycle"
  | .resolution => "TermSurface must be given frames of its own resolution"
  | .outOfBounds length index =>
    "index out of bounds: the len is " ++ toString length ++ " but the index is " ++ toString index
  | .boardFailed => "board failed"

end Handheld
