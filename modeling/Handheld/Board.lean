import Handheld.Button
import Handheld.Fault

/-!
# Boards

A board is a processor wired to a display. The console runs it in bursts of a bounded number of
cycles, drives its pins between bursts, and reads its picture memory and display flags.

The picture memory is in *pages*: `height / 8` pages of `width` bytes each, where bit `n` of byte
`page * width + x` is the pixel in column `x` and row `page * 8 + n` (`Pages.lit`).

A burst may come with reports: button events that someone other than the player handed in while the
burst ran. They matter only to a console that listens to them (`Scheduler.inner`).
-/

namespace Handheld

/-- What the processor was doing when a burst ended. -/
inductive CpuState
  | running
  | sleeping
  /-- The program has finished. -/
  | done
  | crashed
  deriving DecidableEq, Repr

/-- Whether no further burst can follow. -/
def CpuState.isTerminal : CpuState → Bool
  | .running => false
  | .sleeping => false
  | .done => true
  | .crashed => true

/-- The display flags that matter for showing a picture. -/
structure DisplayFlags where
  on : Bool := false
  inverted : Bool := false
  /-- Columns are addressed from right to left. -/
  mirrorX : Bool := false
  /-- Rows are scanned from bottom to top. -/
  mirrorY : Bool := false
  deriving DecidableEq, Repr

/-- What came of a burst. -/
structure Burst where
  cycles : Nat
  state : CpuState
  reports : List ButtonEvent := []
  deriving DecidableEq, Repr

/-- A type of boards: `σ` holds the state of one. -/
class Board (σ : Type) where
  /-- Run at most the given number of cycles; the burst may stop short. -/
  runBurst : σ → Nat → Except Fault (Burst × σ)
  /-- The cycles run since the board was reset. -/
  cycle : σ → Nat
  /-- Hold a pin at a level, `true` for high. -/
  drive : σ → Pin → Bool → σ
  /-- The cycles the board runs in a second. -/
  frequency : σ → Nat
  /-- The width and height of the display in pixels. -/
  size : σ → Nat × Nat
  /-- The picture memory, in pages. -/
  grid : σ → Array UInt8
  flags : σ → DisplayFlags

namespace Pages

/-- Whether the pixel in column `x` and row `y` is lit. -/
def lit (width : Nat) (grid : Array UInt8) (x y : Nat) : Bool :=
  (grid.getD (y / 8 * width + x) 0).toNat.testBit (y % 8)

/-- The bits in a byte of a page of the rows from `top` to just above `bottom`. -/
def rowBits (top bottom : Nat) : UInt8 := UInt8.ofNat (1 <<< min bottom 8 - 1 <<< min top 8)

theorem testBit_rowBits (top bottom : Nat) {n : Nat} (hn : n < 8) :
    (rowBits top bottom).toNat.testBit n = (decide (top ≤ n) && decide (n < bottom)) := by
  have small : ∀ t ≤ 8, ∀ b ≤ 8, ∀ n < 8,
      (UInt8.ofNat (1 <<< b - 1 <<< t)).toNat.testBit n = (decide (t ≤ n) && decide (n < b)) := by
    decide +kernel
  rw [rowBits, small _ (Nat.min_le_right ..) _ (Nat.min_le_right ..) n hn]
  grind

/-- The picture memory with some bits of a byte turned on or off. -/
def setBits (grid : Array UInt8) (index : Nat) (bits : UInt8) (on : Bool) : Array UInt8 :=
  grid.modify index fun byte => if on then byte ||| bits else byte &&& ~~~bits

end Pages

end Handheld
