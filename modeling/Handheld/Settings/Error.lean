/-!
# Refused settings

Settings are checked before anything runs. A `SettingsError` says which check failed and with which
numbers: `message` tells a player, and `dump` is the form in which the program reports the error
that made it stop.
-/

namespace Handheld

/-- The checks that settings can fail. -/
inductive SettingsError
  /-- No clock runs at this frequency. -/
  | frequency (hertz : Nat)
  /-- A burst would have no cycles. -/
  | emptyBurst
  /-- The period called `name`, of `micros` microseconds, is shorter than one cycle. -/
  | emptyPeriod (name : String) (micros : Nat)
  /-- The screen would be redrawn more often than the panel is sampled. -/
  | redrawFaster (redraw sampling : Nat)
  /-- The input queue would hold no event at all. -/
  | emptyQueue
  /-- The board does not run at the frequency that paces it. -/
  | frequencyMismatch (board pacing : Nat)
  deriving DecidableEq, Repr

namespace SettingsError

/-- What a player is told about refused settings. -/
def message : SettingsError → String
  | .frequency hertz => "unsupported clock frequency: " ++ toString hertz ++ " Hz"
  | .emptyBurst => "burst size must be at least one cycle"
  | .emptyPeriod name micros =>
    name ++ " period must be at least one cycle (got " ++ toString micros ++ " us)"
  | .redrawFaster redraw sampling =>
    "redraw period (" ++ toString redraw ++ " cycles) is shorter than the persistence period (" ++
      toString sampling ++ " cycles)"
  | .emptyQueue => "input queue needs room for at least one event"
  | .frequencyMismatch board pacing =>
    "board runs at " ++ toString board ++ " Hz but pacing is configured for " ++
      toString pacing ++ " Hz"

/-- The error with its numbers, as the program shows it when it stops. -/
def dump : SettingsError → String
  | .frequency hertz => "Frequency(" ++ toString hertz ++ ")"
  | .emptyBurst => "EmptyBurst"
  | .emptyPeriod name micros =>
    "EmptyPeriod \x7b name: \"" ++ name ++ "\", micros: " ++ toString micros ++ " \x7d"
  | .redrawFaster redraw sampling =>
    "RedrawFasterThanPersistence \x7b redraw: " ++ toString redraw ++ ", persistence: " ++
      toString sampling ++ " \x7d"
  | .emptyQueue => "EmptyQueue"
  | .frequencyMismatch board pacing =>
    "FrequencyMismatch \x7b machine: " ++ toString board ++ ", pacing: " ++ toString pacing ++
      " \x7d"

end SettingsError

end Handheld
