import Handheld.Board

/-!
# Boards under watch

A board together with the pin writes it has received, oldest first. It runs as the board it watches.
-/

namespace Handheld

/-- A board with the pins written so far and their levels. -/
structure Logged (σ : Type) where
  board : σ
  writes : Array (Pin × Bool) := #[]
  deriving DecidableEq, Repr

namespace Logged

variable {σ : Type} [Board σ]

instance : Board (Logged σ) where
  runBurst watched limit := do
    let (burst, board) ← Board.runBurst watched.board limit
    return (burst, { watched with board })
  cycle watched := Board.cycle watched.board
  drive watched pin level :=
    { board := Board.drive watched.board pin level, writes := watched.writes.push (pin, level) }
  frequency watched := Board.frequency watched.board
  size watched := Board.size watched.board
  grid watched := Board.grid watched.board
  flags watched := Board.flags watched.board

/-- The board with its log started anew. -/
def clear (watched : Logged σ) : Logged σ := { watched with writes := #[] }

end Logged

end Handheld
