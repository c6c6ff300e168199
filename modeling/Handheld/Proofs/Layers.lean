import Handheld.Proofs.Points
import Mathlib.Data.List.Nodup
import Mathlib.Logic.Function.Conjugate

/-!
# The layers of a panel

A frame is put on the canvas layer by layer: the points of each grey level are picked out of the
grid, mirrored if the frame says so. A place that was missed would stay dark, and one that was in
two layers would be painted twice.

* The mirrors of a panel send pixels to pixels (`Panel.flip`). Two mirrors along the same axis
  cancel out, and those along different axes do not get in each other's way (`Panel.flip_flip`).
* The canvas is measured by its bounds, and pixels lie within them
  (`Panel.Pixel.inBounds_point`).
* A point is in the layer of the level that is shown there (`Panel.point_mem_points`). Since no two
  places of the grid have the same point, it is there once, and in no other layer
  (`Panel.nodup_layers`).
* A frame whose pixels and flags are both mirrored has the layers it had before
  (`Panel.IsFlip.points_perm`).

`Panel.layers_partition` says this of the points as they are picked out.
-/

namespace Handheld

namespace Panel

/-- A pixel of a panel, by its column and its row. -/
structure Pixel (panel : Panel) where
  column : Fin panel.width
  row : Fin panel.height
  deriving DecidableEq, Repr

variable {panel : Panel}

/-! ## Pixels -/

namespace Pixel

/-- Where a pixel stands in a grid, row by row. -/
def index (pixel : panel.Pixel) : Nat := pixel.row * panel.width + pixel.column

/-- The canvas point of a column and a row. -/
def point (pixel : panel.Pixel) : Int × Int := ((pixel.column : Nat), -(pixel.row : Nat))

theorem index_lt (pixel : panel.Pixel) : pixel.index < panel.width * panel.height :=
  place_lt_mul pixel.column.isLt pixel.row.isLt

/-- Every place of the grid is that of a pixel. -/
theorem exists_index {index : Nat} (h : index < panel.width * panel.height) :
    ∃ pixel : panel.Pixel, pixel.index = index := by
  have hwidth : 0 < panel.width := Nat.pos_of_mul_pos_right (Nat.zero_lt_of_lt h)
  exact ⟨⟨⟨index % panel.width, Nat.mod_lt _ hwidth⟩, ⟨index / panel.width,
    Nat.div_lt_of_lt_mul h⟩⟩, Nat.div_add_mod' ..⟩

theorem point_inj {pixel pixel' : panel.Pixel} (h : pixel.point = pixel'.point) :
    pixel = pixel' := by
  obtain ⟨hcolumn, hrow⟩ := Prod.mk.inj h
  cases pixel
  cases pixel'
  congr 1
  · exact Fin.ext (Int.natCast_inj.1 hcolumn)
  · exact Fin.ext (Int.natCast_inj.1 (Int.neg_inj.1 hrow))

end Pixel

/-- A pixel mirrored along some axes. -/
def flip (panel : Panel) (alongX alongY : Bool) (pixel : panel.Pixel) : panel.Pixel where
  column := ⟨mirror alongX panel.width pixel.column, mirror_lt pixel.column.isLt⟩
  row := ⟨mirror alongY panel.height pixel.row, mirror_lt pixel.row.isLt⟩

/-- Along each axis two mirrors cancel out. -/
theorem flip_flip (alongX alongY alongX' alongY' : Bool) (pixel : panel.Pixel) :
    panel.flip alongX' alongY' (panel.flip alongX alongY pixel) =
      panel.flip (alongX ^^ alongX') (alongY ^^ alongY') pixel := by
  simp only [flip, mirror_mirror_xor _ _ pixel.column.isLt, mirror_mirror_xor _ _ pixel.row.isLt]

theorem involutive_flip (alongX alongY : Bool) : Function.Involutive (panel.flip alongX alongY) := by
  intro pixel
  simp only [flip, mirror_mirror pixel.column.isLt, mirror_mirror pixel.row.isLt]

theorem commute_flip (alongX alongY alongX' alongY' : Bool) :
    Function.Commute (panel.flip alongX alongY) (panel.flip alongX' alongY') := by
  intro pixel
  rw [flip_flip, flip_flip, Bool.xor_comm alongX, Bool.xor_comm alongY]

/-! ## Bounds -/

/-- A point lies within the bounds of the panel's canvas. -/
structure InBounds (panel : Panel) (point : Int × Int) : Prop where
  left_le : panel.xBounds.1 ≤ point.1
  le_right : point.1 ≤ panel.xBounds.2
  bottom_le : panel.yBounds.1 ≤ point.2
  le_top : point.2 ≤ panel.yBounds.2

theorem Pixel.inBounds_point (pixel : panel.Pixel) : panel.InBounds pixel.point := by
  have hcolumn := pixel.column.isLt
  have hrow := pixel.row.isLt
  constructor <;> simp only [xBounds, yBounds, Pixel.point] <;> omega

/-! ## Layers -/

variable {frame flipped : Frame} {wanted : Nat}

/-- What is shown at a pixel comes from its mirror image. -/
theorem sourceLuma_eq (frame : Frame) (pixel : panel.Pixel) :
    panel.sourceLuma frame pixel.column pixel.row =
      frame.luma.getD (panel.flip frame.flags.mirrorX frame.flags.mirrorY pixel).index 0 := rfl

/-- All points are those of pixels. -/
theorem exists_pixel {point : Int × Int} (h : point ∈ panel.points frame wanted) :
    ∃ pixel : panel.Pixel, pixel.point = point := by
  obtain ⟨x, hx, y, hy, -, rfl⟩ := mem_points.1 h
  exact ⟨⟨⟨x, hx⟩, ⟨y, hy⟩⟩, rfl⟩

/-- A point is in the layer of the level that is shown there. -/
theorem point_mem_points {pixel : panel.Pixel} :
    pixel.point ∈ panel.points frame wanted ↔
      level (panel.sourceLuma frame pixel.column pixel.row) = wanted := by
  constructor
  · intro h
    obtain ⟨x, hx, y, hy, hlevel, heq⟩ := mem_points.1 h
    obtain rfl : pixel = ⟨⟨x, hx⟩, ⟨y, hy⟩⟩ := Pixel.point_inj heq
    exact hlevel
  · intro h
    exact mem_points.2 ⟨_, pixel.column.isLt, _, pixel.row.isLt, h, rfl⟩

/-- A layer repeats no point. -/
theorem nodup_points : (panel.points frame wanted).Nodup := by
  refine List.pairwise_filterMap.2 (List.nodup_range.imp_of_mem ?_)
  intro index index' hindex hindex' hne point hpoint point' hpoint' heq
  obtain ⟨-, hpoint⟩ := Option.ite_none_right_eq_some.1 hpoint
  obtain ⟨-, hpoint'⟩ := Option.ite_none_right_eq_some.1 hpoint'
  have hsame : panel.pointOf frame.flags index = panel.pointOf frame.flags index' :=
    (Option.some.inj hpoint).trans (heq.trans (Option.some.inj hpoint').symm)
  exact hne (pointOf_inj (List.mem_range.1 hindex) (List.mem_range.1 hindex') hsame)

/-- Nor do layers of different levels have a point in common. -/
theorem nodup_layers {levels : List Nat} (h : levels.Nodup) :
    (levels.flatMap (panel.points frame)).Nodup := by
  refine List.nodup_flatMap.2 ⟨fun _ _ => nodup_points, h.imp fun hne point hpoint hother => ?_⟩
  -- A point in both layers would be shown at both levels.
  obtain ⟨pixel, rfl⟩ := exists_pixel hpoint
  exact hne ((point_mem_points.1 hpoint).symm.trans (point_mem_points.1 hother))

/-- The four layers together have the point of each pixel once. -/
theorem count_layers (pixel : panel.Pixel) :
    ([0, 1, 2, 3].flatMap (panel.points frame)).count pixel.point = 1 := by
  have hlevel : level (panel.sourceLuma frame pixel.column pixel.row) ∈ List.range 4 :=
    List.mem_range.2 (level_lt _)
  exact List.count_eq_one_of_mem (nodup_layers (by decide))
    (List.mem_flatMap.2 ⟨_, hlevel, point_mem_points.2 rfl⟩)

/-! ## Mirrored frames -/

/-- A frame has the pixels of another one mirrored along some axes, and says so by its flags. What
    stands in the grid after the last pixel does not matter. -/
structure IsFlip (panel : Panel) (alongX alongY : Bool) (frame flipped : Frame) : Prop where
  mirrorX : flipped.flags.mirrorX = (frame.flags.mirrorX ^^ alongX)
  mirrorY : flipped.flags.mirrorY = (frame.flags.mirrorY ^^ alongY)
  luma (pixel : panel.Pixel) :
    flipped.luma[(panel.flip alongX alongY pixel).index]? = frame.luma[pixel.index]?

section Flip

variable {alongX alongY : Bool} (h : panel.IsFlip alongX alongY frame flipped)

include h

/-- Both frames show the same. -/
theorem IsFlip.sourceLuma_eq (pixel : panel.Pixel) :
    panel.sourceLuma flipped pixel.column pixel.row =
      panel.sourceLuma frame pixel.column pixel.row := by
  rw [Panel.sourceLuma_eq, Panel.sourceLuma_eq, h.mirrorX, h.mirrorY, ← flip_flip,
    Array.getD_eq_getD_getElem?, h.luma, Array.getD_eq_getD_getElem?]

theorem IsFlip.points_perm (wanted : Nat) :
    (panel.points flipped wanted).Perm (panel.points frame wanted) := by
  have hiff (pixel : panel.Pixel) :
      pixel.point ∈ panel.points flipped wanted ↔ pixel.point ∈ panel.points frame wanted := by
    rw [point_mem_points, point_mem_points, h.sourceLuma_eq]
  refine (List.perm_ext_iff_of_nodup nodup_points nodup_points).2 fun point => ⟨?_, ?_⟩
  · intro hpoint
    obtain ⟨pixel, rfl⟩ := exists_pixel hpoint
    exact (hiff pixel).1 hpoint
  · intro hpoint
    obtain ⟨pixel, rfl⟩ := exists_pixel hpoint
    exact (hiff pixel).2 hpoint

/-- The mirrored frame has a byte for each pixel, too. -/
theorem IsFlip.le_size (hluma : panel.width * panel.height ≤ frame.luma.size) :
    panel.width * panel.height ≤ flipped.luma.size := by
  by_contra hlt
  -- Otherwise the place after the last byte is that of a pixel, whose mirror image has a byte.
  obtain ⟨pixel, hindex⟩ := Pixel.exists_index (Nat.not_le.1 hlt)
  have hplace : (panel.flip alongX alongY pixel).index < frame.luma.size :=
    Nat.lt_of_lt_of_le (Pixel.index_lt _) hluma
  have hbyte := h.luma (panel.flip alongX alongY pixel)
  rw [involutive_flip, hindex, Array.getElem?_eq_none (Nat.le_refl _),
    Array.getElem?_eq_getElem hplace] at hbyte
  exact Option.some_ne_none _ hbyte.symm

end Flip

/-- The points that are picked out of a frame with a byte for each pixel at least. Picking them out
    succeeds. The levels from 0 to 3 have each point of the panel once between them, and no level
    has a point outside the bounds. The level that has a point is that of the pixel which is
    mirrored there. The mirrors along the two axes are their own inverses and commute. A frame that
    has its pixels and its flags mirrored along some axes has the same points at each level. -/
theorem layers_partition (hluma : panel.width * panel.height ≤ frame.luma.size) :
    ∃ points : Nat → List (Int × Int),
      (∀ wanted, panel.pointsAtLevel frame wanted = .ok (points wanted)) ∧
      (∀ pixel : panel.Pixel, ([0, 1, 2, 3].flatMap points).count pixel.point = 1) ∧
      (∀ wanted, ∀ point ∈ points wanted, panel.InBounds point) ∧
      (∀ pixel : panel.Pixel, ∃ source luma,
        panel.flip frame.flags.mirrorX frame.flags.mirrorY source = pixel ∧
        frame.luma[source.index]? = some luma ∧
        ∀ wanted, pixel.point ∈ points wanted ↔ wanted = luma.toNat / 64) ∧
      Function.Involutive (panel.flip true false) ∧ Function.Involutive (panel.flip false true) ∧
      Function.Commute (panel.flip true false) (panel.flip false true) ∧
      ∀ alongX alongY flipped, panel.IsFlip alongX alongY frame flipped →
        ∀ wanted, ∃ same, panel.pointsAtLevel flipped wanted = .ok same ∧
          same.Perm (points wanted) := by
  refine ⟨panel.points frame, pointsAtLevel_eq_points hluma, count_layers, ?_, ?_,
    involutive_flip true false, involutive_flip false true, commute_flip true false false true, ?_⟩
  · intro wanted point hpoint
    obtain ⟨pixel, rfl⟩ := exists_pixel hpoint
    exact pixel.inBounds_point
  · intro pixel
    have hplace : (panel.flip frame.flags.mirrorX frame.flags.mirrorY pixel).index <
        frame.luma.size := Nat.lt_of_lt_of_le (Pixel.index_lt _) hluma
    refine ⟨_, _, involutive_flip _ _ pixel, Array.getElem?_eq_getElem hplace, fun wanted => ?_⟩
    rw [point_mem_points, level_eq_div, sourceLuma_eq, Array.getD_eq_getD_getElem?,
      Array.getElem?_eq_getElem hplace, Option.getD_some, eq_comm]
  · intro alongX alongY flipped hflip wanted
    exact ⟨_, pointsAtLevel_eq_points (hflip.le_size hluma) wanted, hflip.points_perm wanted⟩

/-- Two by two pixels, one of each level, mirrored from left to right, and a byte to spare. -/
def patch : Frame :=
  { width := 2
    height := 2
    luma := #[0, 100, 170, 255, 9]
    flags := { on := true, mirrorX := true } }

/-- The same picture, not mirrored. -/
def straightPatch : Frame :=
  { width := 2
    height := 2
    luma := #[100, 0, 255, 170]
    flags := { on := true } }

theorem layers_partition_patch : ∃ points : Nat → List (Int × Int),
    pointsAtLevel { width := 2, height := 2 } patch 3 = .ok (points 3) ∧
      ([0, 1, 2, 3].flatMap points).count (0, -1) = 1 ∧ (0, -1) ∈ points 3 ∧ (0, -1) ∉ points 2 ∧
      ∃ same, pointsAtLevel { width := 2, height := 2 } straightPatch 3 = .ok same ∧
        same.Perm (points 3) := by
  let panel : Panel := { width := 2, height := 2 }
  have hflip : panel.IsFlip true false patch straightPatch := by
    refine ⟨rfl, rfl, fun ⟨column, row⟩ => ?_⟩
    revert column row
    decide
  have hsize : panel.width * panel.height ≤ patch.luma.size := by decide
  obtain ⟨points, hpoints, hcount, -, hlevel, hinvolutive, -, -, hsame⟩ := layers_partition hsize
  let corner : panel.Pixel := ⟨⟨0, by decide⟩, ⟨1, by decide⟩⟩
  obtain ⟨source, luma, hsource, hluma, hmem⟩ := hlevel corner
  -- The corner is mirrored from the other end of its row.
  obtain rfl : source = panel.flip true false corner := hinvolutive.eq_iff.1 hsource
  obtain rfl : luma = 255 := (Option.some.inj hluma).symm
  exact ⟨points, hpoints 3, hcount corner, (hmem 3).2 rfl, fun h => absurd ((hmem 2).1 h) (by decide),
    hsame true false straightPatch hflip 3⟩

end Panel

end Handheld
