import Handheld.Frame
import Handheld.Screen.Canvas

/-!
# The panel on a terminal

A panel is shown in a bordered block at the top left of a terminal. A cell of a terminal holds two
by four braille dots, so the inside of the block has a dot for each pixel, or a few more than that
when the sizes are not multiples.

Brightness is shown in four levels. The lowest is the background; the others are painted from dim to
bright (`Panel.layers`), each in its colour, so that a bright pixel wins a shared cell. An inverted
frame has the colours in reverse. Pixels are placed by the frame's mirroring flags, and in the
coordinates of a canvas whose vertical axis points up: row `y` of the panel is at height `-y`.

All this comes to a sketch (`Panel.sketch`). What a terminal shows of it (`Panel.draw`) is left to a
canvas.
-/

namespace Handheld

/-- A panel of a resolution. -/
structure Panel where
  width : Nat
  height : Nat
  deriving DecidableEq, Repr

namespace Panel

/-- The grey level of a brightness, from 0 to 3. -/
def level (luma : UInt8) : Nat := luma.toNat * 4 / 256

/-- The colour of a grey level. -/
def palette (inverted : Bool) (level : Nat) : Colour :=
  match if inverted then 3 - level else level with
  | 0 => .black
  | 1 => .darkGray
  | 2 => .gray
  | _ => .white

/-- The colour behind the panel. -/
def background (inverted : Bool) : Colour := palette inverted 0

/-- A place counted from the other end of an axis, if it is mirrored. -/
def mirror (mirrored : Bool) (extent place : Nat) : Nat :=
  if mirrored then extent - 1 - place else place

/-- The canvas coordinates of the pixels at a grey level, in the order of the frame's grid. A frame
    with too small a grid is a fault. -/
def pointsAtLevel (panel : Panel) (frame : Frame) (wanted : Nat) : Except Fault (List (Int × Int)) :=
  let count := panel.width * panel.height
  if frame.luma.size < count then .error (.outOfBounds frame.luma.size frame.luma.size)
  else
    .ok <| (List.range count).filterMap fun i =>
      if level (frame.luma.getD i 0) = wanted then
        let sx := mirror frame.flags.mirrorX panel.width (i % panel.width)
        let sy := mirror frame.flags.mirrorY panel.height (i / panel.width)
        some ((sx : Int), -(sy : Int))
      else none

/-- A size as a terminal takes it, which counts its cells in 16 bits: the low bits are kept. -/
def word (size : Nat) : Nat := size % 65536

/-- The columns of cells inside the border. -/
def innerColumns (panel : Panel) : Nat := (word panel.width + 1) / 2

/-- The rows of cells inside the border. -/
def innerRows (panel : Panel) : Nat := (word panel.height + 3) / 4

/-- The columns of the block with its border. -/
def columns (panel : Panel) : Nat := 2 + panel.innerColumns

/-- The rows of the block with its border. -/
def rows (panel : Panel) : Nat := 2 + panel.innerRows

/-- The first and the last column of the canvas. -/
def xBounds (panel : Panel) : Int × Int := (0, panel.width - 1)

/-- The heights of the last and the first row of the canvas. -/
def yBounds (panel : Panel) : Int × Int := (-(panel.height - 1), 0)

/-- What the title says. -/
def title : List Char := "ARDUBOY".toList

/-- The layers of a frame, from dim to bright. Nothing is painted while the panel is off, nor at the
    lowest level. -/
def layers (panel : Panel) (frame : Frame) : Except Fault (List Layer) :=
  if frame.flags.on then
    [1, 2, 3].mapM fun level => do
      let points ← panel.pointsAtLevel frame level
      return { points, ink := palette frame.flags.inverted level }
  else .ok []

/-- What is to be drawn of a frame of the panel's own resolution. -/
def sketch (panel : Panel) (frame : Frame) : Except Fault Sketch :=
  if frame.width = panel.width ∧ frame.height = panel.height then do
    let layers ← panel.layers frame
    return {
      columns := panel.columns
      rows := panel.rows
      title
      paper := background frame.flags.inverted
      xBounds := panel.xBounds
      yBounds := panel.yBounds
      layers }
  else .error .resolution

/-- What a terminal shows once a frame has been drawn on it by way of a canvas. -/
def draw (panel : Panel) (columns rows : Nat) (frame : Frame) (canvas : Canvas := .braille) :
    Except Fault Screen := do
  let sketch ← panel.sketch frame
  return canvas.render columns rows sketch

end Panel

end Handheld
