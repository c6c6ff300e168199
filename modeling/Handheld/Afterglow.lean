import Handheld.Fault

/-!
# Afterglow

The panel toggles pixels faster than a terminal, or an eye, can follow. The afterglow integrates
them: at each sample every pixel fades by `decay`, down to 0 at most, and then brightens by
`increase`, up to 255 at most, if it is lit (`Afterglow.fade`). With an increase above the decay a
pixel ramps up faster than it fades, so a strobed pixel settles at a steady grey.

Brightness is kept row by row, the picture memory comes in pages of eight rows. A sample walks the
pages byte by byte and touches the eight pixels of each byte once; rows past the last whole page
are left as they are.
-/

namespace Handheld

/-- The brightness at a place of a grid, or the fault of reading past its end. -/
def levelAt (luma : Array UInt8) (index : Nat) : Except Fault UInt8 :=
  match luma[index]? with
  | some level => .ok level
  | none => .error (.outOfBounds luma.size index)

/-- The brightness of every pixel, row by row. -/
structure Afterglow where
  width : Nat
  height : Nat
  luma : Array UInt8
  size_luma : luma.size = width * height
  deriving DecidableEq, Repr

namespace Afterglow

/-- A dark afterglow. -/
def dark (width height : Nat) : Afterglow :=
  { width, height, luma := Array.replicate (width * height) 0, size_luma := Array.size_replicate }

/-- The whole pages in as many bytes as a grid has for each eight pixels. Without columns there are no
    pages, however many rows there are. -/
theorem div_width {width : Nat} (height : Nat) (width_pos : 0 < width) :
    width * height / 8 / width = height / 8 := by
  rw [Nat.div_div_eq_div_mul, Nat.mul_comm width, Nat.mul_comm 8, Nat.mul_comm height,
    Nat.mul_div_mul_left _ _ width_pos]

/-- The brightness in column `x` and row `y`. Only the place in the grid is checked, so a column
    past the right edge reads from a later row. -/
def get (glow : Afterglow) (x y : Nat) : Except Fault UInt8 := levelAt glow.luma (y * glow.width + x)

/-- A pixel's brightness after a sample. -/
def fade (decay increase : UInt8) (lit : Bool) (level : UInt8) : UInt8 :=
  UInt8.ofNat (min 255 (level.toNat - decay.toNat + if lit then increase.toNat else 0))

/-- Sample one byte of a page: eight pixels of column `x`, the topmost from the lowest bit. -/
def sampleColumn (width : Nat) (decay increase : UInt8) (page x : Nat) (column : UInt8)
    (luma : Array UInt8) : Array UInt8 :=
  Nat.fold 8 (fun row _ luma => luma.modify ((page * 8 + row) * width + x)
    (fade decay increase (column.toNat.testBit row))) luma

/-- Sample one page, column by column. -/
def samplePage (width : Nat) (decay increase : UInt8) (grid : Array UInt8) (page : Nat)
    (luma : Array UInt8) : Array UInt8 :=
  Nat.fold width (fun x _ luma =>
    sampleColumn width decay increase page x (grid.getD (page * width + x) 0) luma) luma

/-- Sample a number of pages, from the top. -/
def samplePages (width : Nat) (decay increase : UInt8) (grid : Array UInt8) (pages : Nat)
    (luma : Array UInt8) : Array UInt8 :=
  Nat.fold pages (fun page _ luma => samplePage width decay increase grid page luma) luma

theorem size_fold {α : Type} {n : Nat} {f : (i : Nat) → i < n → Array α → Array α} {xs : Array α}
    (h : ∀ i hi ys, (f i hi ys).size = ys.size) : (Nat.fold n f xs).size = xs.size := by
  induction n with
  | zero => rfl
  | succ n ih => rw [Nat.fold_succ, h, ih fun i hi => h i (Nat.lt_succ_of_lt hi)]

theorem size_samplePages (width : Nat) (decay increase : UInt8) (grid : Array UInt8) (pages : Nat)
    (luma : Array UInt8) :
    (samplePages width decay increase grid pages luma).size = luma.size :=
  size_fold fun _ _ _ => size_fold fun _ _ _ => size_fold fun _ _ _ => Array.size_modify

/-- The afterglow after a sample of the picture memory, which must hold one byte for each eight
    pixels. -/
def sample (glow : Afterglow) (grid : Array UInt8) (decay increase : UInt8) :
    Except Fault Afterglow :=
  if grid.size = glow.width * glow.height / 8 then
    .ok { glow with
      luma := samplePages glow.width decay increase grid (grid.size / glow.width) glow.luma
      size_luma := (size_samplePages ..).trans glow.size_luma }
  else .error .gridLength

end Afterglow

end Handheld
