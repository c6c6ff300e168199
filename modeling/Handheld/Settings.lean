import Handheld.Clock

/-!
# Settings

What a run is tuned by: the clock, the length of a burst, the periods at which the panel is sampled
and the screen redrawn (both in cycles), how fast the afterglow fades and brightens, and whether
simulated time is held back to the wall. `Settings.ofMicros` takes the periods in microseconds and
refuses settings under which some part could never do its work.
-/

namespace Handheld

/-- Settings that a run can start with. -/
structure Settings where
  clock : Clock
  /-- The cycles of one burst. -/
  burst : Nat
  /-- The cycles between two samples of the panel. -/
  samplingPeriod : Nat
  /-- The cycles between two redraws of the screen. -/
  redrawPeriod : Nat
  /-- What each pixel loses at a sample. -/
  decay : UInt8
  /-- What a lit pixel then gains. -/
  increase : UInt8
  /-- Whether simulated time waits for the wall. -/
  throttle : Bool
  burst_pos : 0 < burst
  samplingPeriod_pos : 0 < samplingPeriod
  samplingPeriod_le : samplingPeriod ≤ redrawPeriod
  deriving DecidableEq, Repr

namespace Settings

/-- The loss of a pixel at a sample, unless chosen otherwise: a third of the range. -/
def defaultDecay : UInt8 := 85

/-- The gain of a lit pixel at a sample, unless chosen otherwise: two thirds of the range. -/
def defaultIncrease : UInt8 := 170

theorem redrawPeriod_pos (s : Settings) : 0 < s.redrawPeriod :=
  Nat.lt_of_lt_of_le s.samplingPeriod_pos s.samplingPeriod_le

/-- The settings with these periods, checked in the order frequency, burst, sampling, redraw. They
    have the default afterglow and are held back to the wall. -/
def ofMicros (hertz burst samplingMicros redrawMicros : Nat) : Except SettingsError Settings := do
  let clock ← Clock.ofFrequency hertz
  let sampling := clock.cyclesOfMicros samplingMicros
  let redraw := clock.cyclesOfMicros redrawMicros
  if burst_pos : 0 < burst then
    if sampling_pos : 0 < sampling then
      if 0 < redraw then
        if sampling_le : sampling ≤ redraw then
          return {
            clock
            burst
            samplingPeriod := sampling
            redrawPeriod := redraw
            decay := defaultDecay
            increase := defaultIncrease
            throttle := true
            burst_pos
            samplingPeriod_pos := sampling_pos
            samplingPeriod_le := sampling_le }
        else throw (.redrawFaster redraw sampling)
      else throw (.emptyPeriod "redraw" redrawMicros)
    else throw (.emptyPeriod "persistence" samplingMicros)
  else throw .emptyBurst

end Settings

end Handheld
