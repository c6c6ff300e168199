import Handheld.Screen

/-!
# Canvases

What is to be drawn on a terminal is told by a *sketch*: a bordered block at its top left, and
inside the block points in several colours, by coordinates of which the vertical one points up. How
a sketch becomes characters is not the console's own business but that of a *canvas*. A canvas may
use only a part of a large area, be it the block or the terminal.

`Canvas.braille` is the canvas of the program. Each cell holds two by four dots. The bounds of a
sketch are laid over all dots inside the block; a point sets the dot that it falls on
(`Sketch.dotOf?`) and gives the cell its colour. A cell without a dot stays as the block left it,
and what lies outside the terminal is cut off. The cells of an area are counted in 16 bits, so that
an area with more of them is made smaller first (`Canvas.clip`).
-/

namespace Handheld

/-- Points of one colour. -/
structure Layer where
  points : List (Int × Int)
  ink : Colour
  deriving DecidableEq, Repr

/-- A point to be painted. -/
structure Stroke where
  point : Int × Int
  ink : Colour
  deriving DecidableEq, Repr

/-- A bordered block with a title and a colour behind it, and the layers of points that are painted
    inside it as braille dots, each over the ones before. -/
structure Sketch where
  columns : Nat
  rows : Nat
  title : List Char
  paper : Colour
  /-- The first and the last column of points. -/
  xBounds : Int × Int
  /-- The heights of the last and the first row of points. -/
  yBounds : Int × Int
  layers : List Layer
  deriving DecidableEq, Repr

/-- The dots set so far in a cell, as bits, and the colour painted last. -/
structure Mark where
  dots : Nat := 0
  ink : Colour := .reset
  deriving DecidableEq, Repr

/-- A way to show sketches. -/
structure Canvas where
  /-- The columns and rows of an area that are used, by those that it has. -/
  taken : Nat → Nat → Nat × Nat
  /-- What a terminal of so many columns and rows shows of a sketch. -/
  render : Nat → Nat → Sketch → Screen

namespace Sketch

/-- The columns of cells inside the border. -/
def innerColumns (sketch : Sketch) : Nat := sketch.columns - 2

/-- The rows of cells inside the border. -/
def innerRows (sketch : Sketch) : Nat := sketch.rows - 2

/-- The points of all layers, in the order in which they are painted. -/
def strokes (sketch : Sketch) : List Stroke :=
  sketch.layers.flatMap fun layer => layer.points.map fun point => { point, ink := layer.ink }

/-- A distance, scaled so that an extent becomes that from the first to the last of some dots, and
    truncated. -/
def scaled (dots : Nat) (extent distance : Int) : Nat := (distance * (dots - 1) / extent).toNat

/-- The dot, counted from the left and the top of the inside, on which a point within the bounds
    falls. Bounds without an extent cannot be measured by, and there is no dot. -/
def dotOf? (sketch : Sketch) (point : Int × Int) : Option (Nat × Nat) :=
  let (left, right) := sketch.xBounds
  let (bottom, top) := sketch.yBounds
  if left ≤ point.1 ∧ point.1 ≤ right ∧ bottom ≤ point.2 ∧ point.2 ≤ top ∧
      left < right ∧ bottom < top then
    some (scaled (2 * sketch.innerColumns) (right - left) (point.1 - left),
      scaled (4 * sketch.innerRows) (top - bottom) (top - point.2))
  else none

/-- The bit of a dot in its cell's braille character, by its column and row in the cell. -/
def dotBit (column row : Nat) : Nat :=
  match row, column with
  | 0, 0 => 0x01
  | 1, 0 => 0x02
  | 2, 0 => 0x04
  | _, 0 => 0x40
  | 0, _ => 0x08
  | 1, _ => 0x10
  | 2, _ => 0x20
  | _, _ => 0x80

/-- The marks, row by row, with one more stroke. -/
def plot (sketch : Sketch) (marks : Array Mark) (stroke : Stroke) : Array Mark :=
  match sketch.dotOf? stroke.point with
  | none => marks
  | some (x, y) =>
    marks.modify (y / 4 * sketch.innerColumns + x / 2) fun mark =>
      { dots := mark.dots ||| dotBit (x % 2) (y % 4), ink := stroke.ink }

/-- The marks of all strokes. -/
def paint (sketch : Sketch) : Array Mark :=
  sketch.strokes.foldl sketch.plot (.replicate (sketch.innerColumns * sketch.innerRows) {})

/-- The braille character with some dots. -/
def braille (dots : Nat) : Char := Char.ofNat (0x2800 + dots)

/-- The character of the border in column `x` and row `y` of the block, with the title over its
    top. -/
def borderGlyph (sketch : Sketch) (x y : Nat) : Char :=
  let top := y = 0
  let left := x = 0
  let bottom := y + 1 = sketch.rows
  let right := x + 1 = sketch.columns
  if top then
    if left then '┌' else if right then '┐' else sketch.title.getD (x - 1) '─'
  else if bottom then
    if left then '└' else if right then '┘' else '─'
  else '│'

/-- The cell in column `x` and row `y` of a terminal that shows marks. -/
def cellAt (sketch : Sketch) (marks : Array Mark) (x y : Nat) : Cell :=
  if sketch.columns ≤ x ∨ sketch.rows ≤ y then {}
  else if x = 0 ∨ y = 0 ∨ x + 1 = sketch.columns ∨ y + 1 = sketch.rows then
    { glyph := sketch.borderGlyph x y, paper := sketch.paper }
  else
    let mark := marks.getD ((y - 1) * sketch.innerColumns + (x - 1)) {}
    if mark.dots = 0 then { paper := sketch.paper }
    else { glyph := braille mark.dots, ink := mark.ink }

end Sketch

namespace Canvas

/-- As many cells as an area may have. -/
def mostCells : Nat := 65535

/-- The whole part of a square root, found bit by bit, of a number of up to 32 bits. -/
def root (n : Nat) : Nat :=
  (List.range 16).foldr (fun bit root =>
    let next := root + 1 <<< bit
    if next * next ≤ n then next else root) 0

/-- An area with too many cells is made smaller, and keeps its proportions. -/
def clip (columns rows : Nat) : Nat × Nat :=
  if columns * rows ≤ mostCells then (columns, rows)
  else (root (mostCells * columns / rows), root (mostCells * rows / columns))

/-- The canvas of braille characters. -/
def braille : Canvas where
  taken := clip
  render columns rows sketch :=
    let (right, bottom) := clip columns rows
    let (blockColumns, blockRows) := clip sketch.columns sketch.rows
    let block := { sketch with columns := blockColumns, rows := blockRows }
    let marks := block.paint
    .ofFn columns rows fun x y => if x < right ∧ y < bottom then block.cellAt marks x y else {}

end Canvas

end Handheld
