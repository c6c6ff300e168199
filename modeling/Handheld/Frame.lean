import Handheld.Afterglow
import Handheld.Board

/-!
# Frames

A frame is a finished picture: a copy of the afterglow with the display flags that go with it. The
simulation publishes frames one after the other, each numbered by how many were published before
it and itself; whoever draws takes a copy of the latest one. Publishing and copying are whole steps,
so a frame is never seen half written.
-/

namespace Handheld

/-- A picture ready to be drawn. Before anything is published there is the empty frame. -/
structure Frame where
  width : Nat := 0
  height : Nat := 0
  /-- The brightness of every pixel, row by row. -/
  luma : Array UInt8 := #[]
  flags : DisplayFlags := {}
  /-- The number of frames published up to this one. -/
  sequence : Nat := 0
  deriving DecidableEq, Repr

namespace Frame

/-- The frame published after `previous`. -/
def publish (previous : Frame) (glow : Afterglow) (flags : DisplayFlags) : Frame :=
  { width := glow.width
    height := glow.height
    luma := glow.luma
    flags
    sequence := previous.sequence + 1 }

/-- The brightness in column `x` and row `y`; only the place in the grid is checked. -/
def get (frame : Frame) (x y : Nat) : Except Fault UInt8 :=
  levelAt frame.luma (y * frame.width + x)

end Frame

end Handheld
