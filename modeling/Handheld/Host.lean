import Handheld.Frame
import Handheld.Keyboard
import Handheld.Settings.Error

/-!
# The host's side

What the host loops have in common: why they stop (`Exit`), what can go wrong for them
(`HostError`), where their input comes from (`Input`) and where their frames go (`Album`).

An input is polled and hands over the events since the last poll, or fails. An album keeps every
frame drawn, and may be made to fail at some drawing.
-/

namespace Handheld

/-- Why a host loop stopped. -/
inductive Exit
  | quit
  /-- The board stopped by itself. -/
  | ended (state : CpuState)
  deriving DecidableEq, Repr

/-- What can go wrong for a host. -/
inductive HostError
  | settings (error : SettingsError)
  /-- The terminal failed, with the reason it gave. -/
  | terminal (reason : String)
  /-- The simulation broke down on its own thread. -/
  | simulationLost
  deriving DecidableEq, Repr

namespace HostError

/-- What a player is told. -/
def message : HostError → String
  | .settings error => "invalid configuration: " ++ error.message
  | .terminal reason => "terminal i/o failed: " ++ reason
  | .simulationLost => "simulation thread panicked"

/-- The error as the program shows it when it stops. -/
def dump : HostError → String
  | .settings error => "Config(" ++ error.dump ++ ")"
  | .terminal reason => "Io(" ++ reason ++ ")"
  | .simulationLost => "SimulationPanicked"

end HostError

/-- A type of inputs. -/
class Input (ι : Type) where
  /-- The events since the last poll, at the wall time given, or the reason of a failure. -/
  poll : ι → Nat → Except String (List HostEvent) × ι

/-- An input that hands over one batch of events at each poll. -/
structure InputScript where
  batches : List (List HostEvent)
  /-- The poll, counted from one, that fails, and the reason. -/
  failure : Option (Nat × String) := none
  polls : Nat := 0
  deriving DecidableEq, Repr

/-- The next batch; none is left when the script is over. -/
def InputScript.poll (script : InputScript) : Except String (List HostEvent) × InputScript :=
  let polls := script.polls + 1
  match script.failure.filter fun failure => failure.1 = polls with
  | some (_, reason) => (.error reason, { script with polls })
  | none => (.ok (script.batches.headD []), { script with polls, batches := script.batches.tail })

instance : Input InputScript where
  poll script _ := script.poll

/-- A keyboard at which keys were struck before the first poll, and none after it. -/
structure StruckKeys where
  keyboard : Keyboard
  waiting : List TerminalEvent
  deriving DecidableEq, Repr

instance : Input StruckKeys where
  poll keys now :=
    let (events, keyboard) := keys.keyboard.poll (keys.waiting.map (·, now)) now
    (.ok events, { keyboard, waiting := [] })

/-- The frames drawn so far, in order. -/
structure Album where
  frames : List Frame := []
  /-- The drawing, counted from one, that fails, and the reason. -/
  failure : Option (Nat × String) := none
  deriving DecidableEq, Repr

/-- Draw a frame, or fail with a reason. -/
def Album.draw (album : Album) (frame : Frame) : Except String Album :=
  match album.failure.filter fun failure => failure.1 = album.frames.length + 1 with
  | some (_, reason) => .error reason
  | none => .ok { album with frames := album.frames ++ [frame] }

/-- A drawing puts the frame at the end of the album. -/
theorem Album.draw_ok {album next : Album} {frame : Frame} (h : album.draw frame = .ok next) :
    next.frames = album.frames ++ [frame] := by
  rw [draw] at h
  split at h
  · cases h
  · cases h
    rfl

end Handheld
