import Handheld.Keyboard
import Handheld.Screen

/-!
# Terminals

The bytes that go to and fro between the program and a terminal. Keys arrive as characters, or as an
escape byte with a bracketed sequence after it whose last byte tells the key; an escape byte on its
own is the escape key. A screen leaves as its cells, row by row, with the codes of their colours.
-/

namespace Handheld

/-- What the bytes of a key so far amount to. -/
inductive KeyState
  | idle
  /-- After an escape byte. -/
  | escape
  /-- Inside a bracketed sequence. -/
  | sequence
  deriving DecidableEq, Repr

namespace KeyState

/-- The key that a bracketed sequence with this last byte stands for. -/
def ofFinal (c : Char) : KeyCode :=
  match c with
  | 'A' => .up
  | 'B' => .down
  | 'C' => .right
  | 'D' => .left
  | c => .named (String.singleton c)

/-- Read one more character, with the keys that it completes. -/
def read (state : KeyState) (c : Char) : List KeyCode × KeyState :=
  match state with
  | .idle => if c = '\x1b' then ([], .escape) else ([.char c], .idle)
  | .escape =>
    if c = '[' then ([], .sequence)
    else if c = '\x1b' then ([.escape], .escape)
    else ([.escape, .char c], .idle)
  | .sequence => if '@' ≤ c then ([ofFinal c], .idle) else ([], .sequence)

/-- The keys that are complete once nothing more comes. -/
def flush (state : KeyState) : List KeyCode := if state = .escape then [.escape] else []

end KeyState

namespace Colour

/-- The code of a colour among those of a terminal, from the code of its first colour. -/
def code (colour : Colour) (first : Nat) : Nat :=
  match colour with
  | .reset => first + 9
  | .black => first
  | .darkGray => first + 60
  | .gray => first + 7
  | .white => first + 67

end Colour

/-- A cell with the codes of its colours before it. -/
def Cell.paint (cell : Cell) : String :=
  "\x1b[" ++ toString (cell.ink.code 30) ++ ";" ++ toString (cell.paper.code 40) ++ "m" ++
    String.singleton cell.glyph

/-- A screen, painted from the top left corner of a terminal. -/
def Screen.paint (screen : Screen) : String :=
  let line (y : Nat) : String := String.join ((screen.row y).map Cell.paint)
  "\x1b[H" ++ String.intercalate "\r\n" ((List.range screen.rows).map line) ++ "\x1b[0m"

end Handheld
