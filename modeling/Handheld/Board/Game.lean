import Handheld.Board

/-!
# The demo game

What the demo board's firmware plays: the directional buttons move a cursor, a ball bounces around
and leaves its afterglow behind, A toggles inversion, and B toggles a block that strobes far faster
than a terminal redraws and should read as a steady grey.

The game knows two kinds of event. A *frame* takes a sample of the buttons, moves everything and
paints the whole picture anew. A *strobe* flips the block's phase and repaints the block in place;
between frames the picture is thus the one that painting everything would give.
-/

namespace Handheld

/-- The state of the game, with its picture. -/
structure Game where
  /-- The buttons as the last frame found them. -/
  previous : ButtonMap Bool
  /-- The picture memory, in pages. -/
  vram : Array UInt8
  inverted : Bool
  strobing : Bool
  /-- The phase of the strobe. -/
  strobeLit : Bool
  cursor : Nat × Nat
  ball : Nat × Nat
  velocity : Int × Int
  deriving DecidableEq, Repr

namespace Game

/-- The width of the panel. -/
def width : Nat := 128

/-- The height of the panel. -/
def height : Nat := 64

/-- The side of the cursor. -/
def cursorSide : Nat := 6

/-- The side of the ball. -/
def ballSide : Nat := 3

/-- The left edge of the strobing block. -/
def blockLeft : Nat := 100

/-- The top edge of the strobing block. -/
def blockTop : Nat := 8

/-- The side of the strobing block. -/
def blockSide : Nat := 16

/-- A dark picture memory. -/
def darkPages : Array UInt8 := Array.replicate (width * (height / 8)) 0

/-- The picture memory with a rectangle, cut at the panel's edges, turned on or off: page by page,
    and in each page column by column. -/
def fill (grid : Array UInt8) (x y w h : Nat) (on : Bool) : Array UInt8 :=
  let right := min (x + w) width
  let bottom := min (y + h) height
  Nat.fold ((bottom + 7) / 8 - y / 8) (fun i _ grid =>
    let page := y / 8 + i
    let bits := Pages.rowBits (y - page * 8) (bottom - page * 8)
    Nat.fold (right - x) (fun dx _ grid =>
      Pages.setBits grid (page * width + (x + dx)) bits on) grid) grid

/-- The picture memory with the block turned on or off. -/
def fillBlock (grid : Array UInt8) (on : Bool) : Array UInt8 :=
  fill grid blockLeft blockTop blockSide blockSide on

/-- The game before its first frame: nothing is painted yet. -/
def start : Game :=
  { previous := .const false
    vram := darkPages
    inverted := false
    strobing := false
    strobeLit := false
    cursor := (width / 2, height / 2)
    ball := (10, 10)
    velocity := (1, 1) }

/-- A place after the pressed buttons moved it by a pixel each, within bounds. -/
def moveCursor (pressed : ButtonMap Bool) (place : Nat × Nat) : Nat × Nat :=
  let x := if pressed.left then place.1 - 1 else place.1
  let x := if pressed.right then min (x + 1) (width - cursorSide) else x
  let y := if pressed.up then place.2 - 1 else place.2
  let y := if pressed.down then min (y + 1) (height - cursorSide) else y
  (x, y)

/-- The speed of the ball along an axis, turned round at a wall. -/
def bounce (extent place : Nat) (speed : Int) : Int :=
  if (place = 0 ∧ speed < 0) ∨ (extent ≤ place + ballSide ∧ 0 < speed) then -speed else speed

/-- The next place of the ball along an axis. -/
def glide (place : Nat) (speed : Int) : Nat := ((place : Int) + speed).toNat

/-- The game with its picture painted anew: cursor and ball, and the block over both. -/
def render (game : Game) : Game :=
  let vram := fill darkPages game.cursor.1 game.cursor.2 cursorSide cursorSide true
  let vram := fill vram game.ball.1 game.ball.2 ballSide ballSide true
  { game with vram := fillBlock vram (game.strobing && game.strobeLit) }

/-- One frame, with the buttons that are pressed. -/
def frame (game : Game) (pressed : ButtonMap Bool) : Game :=
  let edge button := pressed.get button && !game.previous.get button
  let vx := bounce width game.ball.1 game.velocity.1
  let vy := bounce height game.ball.2 game.velocity.2
  render { game with
    previous := pressed
    inverted := game.inverted ^^ edge .a
    strobing := game.strobing ^^ edge .b
    cursor := moveCursor pressed game.cursor
    velocity := (vx, vy)
    ball := (glide game.ball.1 vx, glide game.ball.2 vy) }

/-- One strobe. -/
def strobe (game : Game) : Game :=
  let lit := !game.strobeLit
  { game with strobeLit := lit, vram := fillBlock game.vram (game.strobing && lit) }

end Game

end Handheld
