import Handheld.Board

/-!
# Scripted boards

A board that does what a script says, burst by burst: how many cycles a burst counts, how far the
cycle counter moves, what the display then shows, what is reported meanwhile and how the burst ends.
When the script is over every further burst runs its full length and changes nothing else. Such a
board can stall, race, halt or break down at any point, which the demo board cannot.
-/

namespace Handheld

/-- One burst of a script. What is left out stays as it is. -/
structure ScriptedBurst where
  reports : List ButtonEvent := []
  grid : Option (Array UInt8) := none
  flags : Option DisplayFlags := none
  /-- The cycles the burst counts; all it was allowed to run if left out. -/
  cycles : Option Nat := none
  /-- The cycles by which the counter moves; those that the burst counts if left out. -/
  advance : Option Nat := none
  /-- How the burst ends; `none` if the board breaks down. -/
  ending : Option CpuState := some .running
  deriving DecidableEq, Repr

/-- A board with the rest of its script. -/
structure ScriptedBoard where
  frequency : Nat
  width : Nat
  height : Nat
  cycle : Nat
  grid : Array UInt8
  flags : DisplayFlags
  bursts : List ScriptedBurst
  deriving DecidableEq, Repr

namespace ScriptedBoard

/-- Run the next burst of the script. -/
def runBurst (board : ScriptedBoard) (limit : Nat) : Except Fault (Burst × ScriptedBoard) :=
  let burst := board.bursts.headD {}
  let cycles := burst.cycles.getD limit
  match burst.ending with
  | none => .error .boardFailed
  | some state =>
    .ok ({ cycles, state, reports := burst.reports },
      { board with
        cycle := board.cycle + burst.advance.getD cycles
        grid := burst.grid.getD board.grid
        flags := burst.flags.getD board.flags
        bursts := board.bursts.tail })

instance : Board ScriptedBoard where
  runBurst := runBurst
  cycle board := board.cycle
  drive board _ _ := board
  frequency board := board.frequency
  size board := (board.width, board.height)
  grid board := board.grid
  flags board := board.flags

end ScriptedBoard

end Handheld
