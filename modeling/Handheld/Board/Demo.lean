import Handheld.Board.Game

/-!
# The demo board

A board with something to show, for a console that has no real processor to run: its firmware plays
the demo game (`Game`) at sixty frames a second, strobing a thousand times a second.

Time on this board is a sequence of events at multiples of the two periods. When a strobe and a
frame fall on the same cycle the strobe comes first. A burst runs the events up to its end
(`runTo`), so where one burst ends and the next begins does not show. The buttons are looked at only
when a frame is due.
-/

namespace Handheld

/-- The demo board. -/
structure DemoBoard where
  frequency : Nat
  cycle : Nat
  /-- The cycle at which the program finishes, if it ever does. -/
  haltAt : Option Nat
  nextFrame : Nat
  nextStrobe : Nat
  /-- The level of each pin that was ever driven. -/
  pins : List (Pin × Bool)
  game : Game
  deriving DecidableEq, Repr

namespace DemoBoard

/-- The cycles between two frames on a board of a frequency. -/
def framePeriodOf (frequency : Nat) : Nat := max (frequency / 60) 1

/-- The cycles between two strobes on a board of a frequency. -/
def strobePeriodOf (frequency : Nat) : Nat := max (frequency / 1000) 1

/-- A board of a frequency that was just reset. -/
def start (frequency : Nat) : DemoBoard :=
  { frequency
    cycle := 0
    haltAt := none
    nextFrame := framePeriodOf frequency
    nextStrobe := strobePeriodOf frequency
    pins := []
    game := .start }

/-- The board, to finish once a number of cycles have run. -/
def haltAfter (board : DemoBoard) (cycles : Nat) : DemoBoard := { board with haltAt := some cycles }

/-- The cycles between two frames. -/
def framePeriod (board : DemoBoard) : Nat := framePeriodOf board.frequency

/-- The cycles between two strobes. -/
def strobePeriod (board : DemoBoard) : Nat := strobePeriodOf board.frequency

theorem framePeriod_pos (board : DemoBoard) : 0 < board.framePeriod :=
  Nat.lt_of_lt_of_le Nat.zero_lt_one (Nat.le_max_right ..)

theorem strobePeriod_pos (board : DemoBoard) : 0 < board.strobePeriod :=
  Nat.lt_of_lt_of_le Nat.zero_lt_one (Nat.le_max_right ..)

/-- The level of a pin. A pin that nobody drives floats high. -/
def level (board : DemoBoard) (pin : Pin) : Bool := (board.pins.lookup pin).getD true

/-- The board with a pin held at a level. -/
def drive (board : DemoBoard) (pin : Pin) (level : Bool) : DemoBoard :=
  { board with pins := (pin, level) :: board.pins.filter fun entry => entry.1 ≠ pin }

/-- The buttons that the firmware reads as pressed: those whose pin is low. -/
def pressed (board : DemoBoard) : ButtonMap Bool := .ofFn fun button => !board.level button.pin

/-- The cycle of the next event. -/
def nextEvent (board : DemoBoard) : Nat := min board.nextFrame board.nextStrobe

/-- The board once the events of the next cycle that has any are over. -/
def runEvent (board : DemoBoard) : DemoBoard :=
  let now := board.nextEvent
  let strobeDue := now = board.nextStrobe
  let frameDue := now = board.nextFrame
  let game := if strobeDue then board.game.strobe else board.game
  { board with
    cycle := now
    nextStrobe := if strobeDue then board.nextStrobe + board.strobePeriod else board.nextStrobe
    nextFrame := if frameDue then board.nextFrame + board.framePeriod else board.nextFrame
    game := if frameDue then game.frame board.pressed else game }

/-- An event is followed only by later ones. -/
theorem nextEvent_lt_runEvent (board : DemoBoard) : board.nextEvent < board.runEvent.nextEvent := by
  have hf := board.framePeriod_pos
  have hs := board.strobePeriod_pos
  simp only [runEvent, nextEvent]
  grind

/-- The board at the cycle `stop`, after every event up to it. -/
def runTo (board : DemoBoard) (stop : Nat) : DemoBoard :=
  if board.nextEvent ≤ stop then board.runEvent.runTo stop else { board with cycle := stop }
termination_by stop + 1 - board.nextEvent
decreasing_by
  have := board.nextEvent_lt_runEvent
  omega

/-- The cycle at which a burst of at most `limit` cycles ends. -/
def burstEnd (board : DemoBoard) (limit : Nat) : Nat :=
  match board.haltAt with
  | none => board.cycle + limit
  | some halt => min (board.cycle + limit) (max halt board.cycle)

/-- Run a burst of at most `limit` cycles. -/
def runBurst (board : DemoBoard) (limit : Nat) : Burst × DemoBoard :=
  let stop := board.burstEnd limit
  let state := if board.haltAt.any (· ≤ stop) then .done else .running
  ({ cycles := stop - board.cycle, state }, board.runTo stop)

instance : Board DemoBoard where
  runBurst board limit := .ok (board.runBurst limit)
  cycle board := board.cycle
  drive := drive
  frequency board := board.frequency
  size _ := (Game.width, Game.height)
  grid board := board.game.vram
  flags board := { on := true, inverted := board.game.inverted }

end DemoBoard

end Handheld
