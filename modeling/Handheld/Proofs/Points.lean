import Handheld.Proofs.Sampling
import Handheld.Screen.Panel
import Mathlib.Tactic.Common

/-!
# The points of a panel

A frame's grid is gone through in its own order, and the frame's mirrors send each pixel to its
point. Seen from the point it is the other way round: column `x` and row `y` of the panel have a
source in the grid (`Panel.sourceIndex`), which lies at `x` and `y` counted from the other end of a
mirrored axis. The two are inverse (`Panel.pointOf_sourceIndex`, `Panel.exists_sourceIndex`), as a
mirror is inverse to itself, so that no two pixels share a point (`Panel.pointOf_inj`). Hence the
points of a grey level are those whose source has that level (`Panel.mem_points`).
-/

namespace Handheld

namespace Panel

variable {panel : Panel} {frame : Frame} {flags : DisplayFlags} {mirrored : Bool}
  {extent place x y index wanted : Nat}

/-! ## Mirrors -/

theorem mirror_lt (h : place < extent) : mirror mirrored extent place < extent := by
  rw [mirror]
  split <;> omega

theorem mirror_mirror (h : place < extent) :
    mirror mirrored extent (mirror mirrored extent place) = place := by
  rw [mirror, mirror]
  split
  · omega
  · rfl

/-- Two mirrors along one axis are none, and one is left of a mirror and none. -/
theorem mirror_mirror_xor (first second : Bool) (h : place < extent) :
    mirror second extent (mirror first extent place) = mirror (first ^^ second) extent place := by
  cases first with
  | false => rw [Bool.false_xor]; rfl
  | true =>
    cases second with
    | false => rfl
    | true => exact mirror_mirror h

/-! ## Sources -/

/-- Where the pixel shown in column `x` and row `y` stands in the grid. -/
def sourceIndex (panel : Panel) (flags : DisplayFlags) (x y : Nat) : Nat :=
  mirror flags.mirrorY panel.height y * panel.width + mirror flags.mirrorX panel.width x

/-- The brightness of the pixel shown in column `x` and row `y`. -/
def sourceLuma (panel : Panel) (frame : Frame) (x y : Nat) : UInt8 :=
  frame.luma.getD (panel.sourceIndex frame.flags x y) 0

/-- The canvas point of a pixel, told by where it stands in the grid. -/
def pointOf (panel : Panel) (flags : DisplayFlags) (index : Nat) : Int × Int :=
  (mirror flags.mirrorX panel.width (index % panel.width),
    -(mirror flags.mirrorY panel.height (index / panel.width) : Nat))

theorem sourceIndex_lt (hx : x < panel.width) (hy : y < panel.height) :
    panel.sourceIndex flags x y < panel.width * panel.height :=
  place_lt_mul (mirror_lt hx) (mirror_lt hy)

theorem pointOf_sourceIndex (hx : x < panel.width) (hy : y < panel.height) :
    panel.pointOf flags (panel.sourceIndex flags x y) = ((x : Int), -(y : Int)) := by
  have hcolumn : mirror flags.mirrorX panel.width x < panel.width := mirror_lt hx
  rw [pointOf, sourceIndex, Nat.mul_add_mod_of_lt hcolumn, place_div hcolumn, mirror_mirror hx,
    mirror_mirror hy]

/-- Every pixel of the grid is shown somewhere. -/
theorem exists_sourceIndex (flags : DisplayFlags) (h : index < panel.width * panel.height) :
    ∃ x < panel.width, ∃ y < panel.height, panel.sourceIndex flags x y = index := by
  have hwidth : 0 < panel.width := Nat.pos_of_mul_pos_right (Nat.zero_lt_of_lt h)
  have hcolumn : index % panel.width < panel.width := Nat.mod_lt _ hwidth
  have hrow : index / panel.width < panel.height := Nat.div_lt_of_lt_mul h
  refine ⟨mirror flags.mirrorX panel.width (index % panel.width), mirror_lt hcolumn,
    mirror flags.mirrorY panel.height (index / panel.width), mirror_lt hrow, ?_⟩
  rw [sourceIndex, mirror_mirror hcolumn, mirror_mirror hrow, Nat.div_add_mod']

/-- No two places of the grid have the same point. -/
theorem pointOf_inj {index' : Nat} (h : index < panel.width * panel.height)
    (h' : index' < panel.width * panel.height)
    (heq : panel.pointOf flags index = panel.pointOf flags index') : index = index' := by
  obtain ⟨x, hx, y, hy, rfl⟩ := exists_sourceIndex flags h
  obtain ⟨x', hx', y', hy', rfl⟩ := exists_sourceIndex flags h'
  rw [pointOf_sourceIndex hx hy, pointOf_sourceIndex hx' hy'] at heq
  obtain ⟨hcolumn, hrow⟩ := Prod.mk.inj heq
  rw [Int.natCast_inj.1 hcolumn, Int.natCast_inj.1 (Int.neg_inj.1 hrow)]

/-! ## Levels -/

theorem level_eq_div (luma : UInt8) : level luma = luma.toNat / 64 := by
  rw [level]
  omega

theorem level_lt (luma : UInt8) : level luma < 4 := by
  have := luma.toNat_lt
  rw [level]
  omega

theorem level_pos_iff (luma : UInt8) : 0 < level luma ↔ 64 ≤ luma.toNat := by
  rw [level]
  omega

/-! ## The points of a level -/

/-- The points of a grey level, if the grid is large enough. -/
def points (panel : Panel) (frame : Frame) (wanted : Nat) : List (Int × Int) :=
  (List.range (panel.width * panel.height)).filterMap fun index =>
    if level (frame.luma.getD index 0) = wanted then some (panel.pointOf frame.flags index)
    else none

theorem pointsAtLevel_eq_points (h : panel.width * panel.height ≤ frame.luma.size) (wanted : Nat) :
    panel.pointsAtLevel frame wanted = .ok (panel.points frame wanted) :=
  if_neg (Nat.not_lt.2 h)

/-- The points of a level are those that are shown at it. -/
theorem mem_points {point : Int × Int} : point ∈ panel.points frame wanted ↔
    ∃ x < panel.width, ∃ y < panel.height,
      level (panel.sourceLuma frame x y) = wanted ∧ point = ((x : Int), -(y : Int)) := by
  simp only [points, List.mem_filterMap, List.mem_range, Option.ite_none_right_eq_some,
    Option.some.injEq]
  constructor
  · rintro ⟨index, hindex, hlevel, rfl⟩
    obtain ⟨x, hx, y, hy, rfl⟩ := exists_sourceIndex frame.flags hindex
    exact ⟨x, hx, y, hy, hlevel, pointOf_sourceIndex hx hy⟩
  · rintro ⟨x, hx, y, hy, hlevel, rfl⟩
    exact ⟨_, sourceIndex_lt hx hy, hlevel, pointOf_sourceIndex hx hy⟩

end Panel

end Handheld
