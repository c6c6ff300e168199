import Handheld.Proofs.Sampling
import Handheld.Screen.Canvas
import Mathlib.Tactic.Common

/-!
# What a canvas is relied on for

The console hands its sketches to a canvas that is not its own. What it relies on is told by
`Canvas.Lawful`, in terms of the dots and cells inside the border of a sketch that fits its terminal
(`Sketch.Fits`):

* a dot is set if a point falls on it (`Sketch.FallsOn`). A point within the bounds does so once its
  distances from the left and from the top are scaled, from the extent of the bounds to that of the
  dots, and truncated;
* a cell with such a point has the colour of the last one, and a cell without stays as the block
  left it;
* an area of up to 65535 cells is used as it is. Of a larger one a canvas may use a part, and no
  sketch fits that has so large a block.

Whether a dot is set is read from the braille character of its cell (`Screen.dot`).
-/

namespace Handheld

/-- The place of a dot among the bits of a braille character: down the left column, down the right
    one, and then the lowest row. -/
def dotIndex (column row : Nat) : Nat := if row = 3 then 6 + column else 3 * column + row

/-- Whether a dot of a cell is set, by its column and row in the cell. -/
def Cell.dot (cell : Cell) (column row : Nat) : Bool :=
  (cell.glyph.toNat - 0x2800).testBit (dotIndex column row)

namespace Screen

variable {columns rows x y : Nat}

/-- The cell in column `x` and row `y`. -/
def cell? (screen : Screen) (x y : Nat) : Option Cell := (screen.row y)[x]?

/-- Whether a dot of the block at the top left is set, counted from inside its border. -/
def dot (screen : Screen) (x y : Nat) : Bool :=
  (screen.cell? (1 + x / 2) (1 + y / 4)).any (·.dot (x % 2) (y % 4))

theorem cell?_ofFn (cell : Nat → Nat → Cell) (hx : x < columns) (hy : y < rows) :
    (ofFn columns rows cell).cell? x y = some (cell x y) := by
  have hplace : y * columns + x < columns * rows := place_lt_mul hx hy
  have hin : x < min ((y + 1) * columns) (columns * rows) - y * columns := by
    rw [Nat.succ_mul]
    omega
  rw [cell?, row, Array.getElem?_toList, Array.getElem?_extract, if_pos (by simpa [ofFn] using hin)]
  simp [ofFn, hplace, Nat.mul_add_mod_of_lt hx, place_div hx]

end Screen

namespace Sketch

/-- A point falls on a dot, counted from the left and the top of the inside: it lies within the
    bounds, which have an extent, and the dot is as far from the left and from the top as the point
    once its distances are scaled to the dots. -/
structure FallsOn (sketch : Sketch) (point : Int × Int) (x y : Nat) : Prop where
  left_le : sketch.xBounds.1 ≤ point.1
  le_right : point.1 ≤ sketch.xBounds.2
  bottom_le : sketch.yBounds.1 ≤ point.2
  le_top : point.2 ≤ sketch.yBounds.2
  left_lt_right : sketch.xBounds.1 < sketch.xBounds.2
  bottom_lt_top : sketch.yBounds.1 < sketch.yBounds.2
  column_eq : scaled (2 * sketch.innerColumns) (sketch.xBounds.2 - sketch.xBounds.1)
    (point.1 - sketch.xBounds.1) = x
  row_eq : scaled (4 * sketch.innerRows) (sketch.yBounds.2 - sketch.yBounds.1)
    (sketch.yBounds.2 - point.2) = y

/-- A point falls on one of the dots of a cell inside the border. -/
def FallsIn (sketch : Sketch) (point : Int × Int) (x y : Nat) : Prop :=
  ∃ column < 2, ∃ row < 4, sketch.FallsOn point (2 * x + column) (4 * y + row)

/-- A sketch fits a terminal if its block has not too many cells and is no larger than what the
    canvas uses of the terminal, and if its bounds are so small that points are scaled without an
    error in rounding. -/
structure Fits (sketch : Sketch) (canvas : Canvas) (columns rows : Nat) : Prop where
  area_le : sketch.columns * sketch.rows ≤ Canvas.mostCells
  columns_le : sketch.columns ≤ (canvas.taken columns rows).1
  rows_le : sketch.rows ≤ (canvas.taken columns rows).2
  bounds_lt : ∀ bound ∈ [sketch.xBounds.1, sketch.xBounds.2, sketch.yBounds.1, sketch.yBounds.2],
    bound.natAbs < 65536

end Sketch

/-- What is relied on of a canvas. -/
structure Canvas.Lawful (canvas : Canvas) : Prop where
  /-- An area that has not too many cells is used as it is. -/
  taken_eq : ∀ {columns rows : Nat}, columns * rows ≤ mostCells →
    canvas.taken columns rows = (columns, rows)
  columns_eq : ∀ (columns rows : Nat) (sketch : Sketch),
    (canvas.render columns rows sketch).columns = columns
  rows_eq : ∀ (columns rows : Nat) (sketch : Sketch),
    (canvas.render columns rows sketch).rows = rows
  /-- The dots that are set are those on which points fall. -/
  dot_iff : ∀ {columns rows : Nat} {sketch : Sketch}, sketch.Fits canvas columns rows →
    ∀ {x y : Nat}, x < 2 * sketch.innerColumns → y < 4 * sketch.innerRows →
    ((canvas.render columns rows sketch).dot x y = true ↔
      ∃ stroke ∈ sketch.strokes, sketch.FallsOn stroke.point x y)
  /-- The last point that falls in a cell gives it its colour. -/
  ink_eq : ∀ {columns rows : Nat} {sketch : Sketch}, sketch.Fits canvas columns rows →
    ∀ {x y : Nat}, x < sketch.innerColumns → y < sketch.innerRows →
    ∀ {before after : List Stroke} {last : Stroke}, sketch.strokes = before ++ last :: after →
    sketch.FallsIn last.point x y → (∀ stroke ∈ after, ¬ sketch.FallsIn stroke.point x y) →
    ∃ cell, (canvas.render columns rows sketch).cell? (1 + x) (1 + y) = some cell ∧
      cell.ink = last.ink
  /-- A cell in which no point falls is as the block left it. -/
  blank : ∀ {columns rows : Nat} {sketch : Sketch}, sketch.Fits canvas columns rows →
    ∀ {x y : Nat}, x < sketch.innerColumns → y < sketch.innerRows →
    (∀ stroke ∈ sketch.strokes, ¬ sketch.FallsIn stroke.point x y) →
    (canvas.render columns rows sketch).cell? (1 + x) (1 + y) = some { paper := sketch.paper }

/-- A cell has a dot if a point falls in it. -/
theorem Canvas.Lawful.exists_dot_iff {canvas : Canvas} (lawful : canvas.Lawful)
    {columns rows x y : Nat} {sketch : Sketch} (fits : sketch.Fits canvas columns rows)
    (hx : x < sketch.innerColumns) (hy : y < sketch.innerRows) :
    (∃ column < 2, ∃ row < 4,
      (canvas.render columns rows sketch).dot (2 * x + column) (4 * y + row) = true) ↔
        ∃ stroke ∈ sketch.strokes, sketch.FallsIn stroke.point x y := by
  constructor
  · rintro ⟨column, hcolumn, row, hrow, hset⟩
    obtain ⟨stroke, hstroke, hfalls⟩ := (lawful.dot_iff fits (by omega) (by omega)).1 hset
    exact ⟨stroke, hstroke, column, hcolumn, row, hrow, hfalls⟩
  · rintro ⟨stroke, hstroke, column, hcolumn, row, hrow, hfalls⟩
    exact ⟨column, hcolumn, row, hrow,
      (lawful.dot_iff fits (by omega) (by omega)).2 ⟨stroke, hstroke, hfalls⟩⟩

end Handheld
