/-!
# Screens

What a terminal shows: a grid of cells, each with a character, the colour it is written in and the
colour behind it. A cell that nothing was written to is blank, in the terminal's own colours.
-/

namespace Handheld

/-- The colours in use; `reset` is the terminal's own. -/
inductive Colour
  | reset
  | black
  | darkGray
  | gray
  | white
  deriving DecidableEq, Repr

/-- A cell of a terminal. -/
structure Cell where
  glyph : Char := ' '
  ink : Colour := .reset
  paper : Colour := .reset
  deriving DecidableEq, Repr

/-- A terminal's cells, row by row. -/
structure Screen where
  columns : Nat
  rows : Nat
  cells : Array Cell
  deriving DecidableEq, Repr

namespace Screen

/-- The screen whose cell in column `x` and row `y` is `cell x y`. -/
def ofFn (columns rows : Nat) (cell : Nat → Nat → Cell) : Screen :=
  { columns
    rows
    cells := Array.ofFn fun i : Fin (columns * rows) => cell (i % columns) (i / columns) }

/-- A screen with nothing on it. -/
def blank (columns rows : Nat) : Screen := ofFn columns rows fun _ _ => {}

/-- The screen with a text over its top row. -/
def ofText (columns rows : Nat) (text : List Char) : Screen :=
  ofFn columns rows fun x y => { glyph := if y = 0 then text.getD x ' ' else ' ' }

/-- The cells of a row. -/
def row (screen : Screen) (y : Nat) : List Cell :=
  (screen.cells.extract (y * screen.columns) ((y + 1) * screen.columns)).toList

/-- The characters of a row. -/
def rowGlyphs (screen : Screen) (y : Nat) : List Char := (screen.row y).map Cell.glyph

/-- The text of a row, without the spaces at its end. -/
def rowText (screen : Screen) (y : Nat) : String :=
  String.ofList ((screen.rowGlyphs y).reverse.dropWhile (· = ' ')).reverse

/-- The texts of all rows. -/
def texts (screen : Screen) : List String := (List.range screen.rows).map screen.rowText

end Screen

end Handheld
