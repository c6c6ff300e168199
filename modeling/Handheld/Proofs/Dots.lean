import Handheld.Proofs.Braille
import Handheld.Proofs.Points
import Handheld.Proofs.Rounds
import Mathlib.Data.List.Pairwise

/-!
# The dots of a panel

What a terminal shows of a frame, on any canvas that can be relied on (`Canvas.Lawful`).

* The sketch of a frame has one stroke for each pixel above the lowest level, if the panel is on
  (`Panel.mem_painted`), and they come in the order of their levels (`Panel.pairwise_painted`).
* If the panel is made of whole cells (`Panel.Whole`) and fits its terminal (`Panel.Fits`), then its
  block has as many dots as the panel has pixels, and every pixel falls on a dot of its own
  (`Panel.fallsOn_iff`).
* The last stroke in a cell is thus the one of its brightest pixel (`Panel.exists_last_painted`),
  whose colour the cell takes.

`Panel.draw_shows` reads this back from the characters and colours of the screen.
-/

namespace Handheld

/-- The last member of a list that has a property. -/
theorem exists_last {α : Type} {p : α → Prop} {l : List α} (h : ∃ a ∈ l, p a) :
    ∃ before last after, l = before ++ last :: after ∧ p last ∧ ∀ a ∈ after, ¬ p a := by
  induction l using List.reverseRecOn with
  | nil =>
    obtain ⟨a, ha, -⟩ := h
    exact absurd ha List.not_mem_nil
  | append_singleton l a ih =>
    by_cases ha : p a
    · exact ⟨l, a, [], rfl, ha, List.forall_mem_nil _⟩
    · obtain ⟨b, hb, hpb⟩ := h
      have hbl : b ∈ l := (List.mem_append.1 hb).resolve_right fun hba =>
        ha (List.mem_singleton.1 hba ▸ hpb)
      obtain ⟨before, last, after, rfl, hlast, hafter⟩ := ih ⟨b, hbl, hpb⟩
      refine ⟨before, last, after ++ [a], List.append_assoc .., hlast, ?_⟩
      exact List.forall_mem_append.2 ⟨hafter, List.forall_mem_singleton.2 ha⟩

namespace Panel

variable {panel : Panel} {frame : Frame} {canvas : Canvas} {columns rows x y : Nat}

/-! ## The sketch of a frame -/

/-- The points that are painted, each with its level, in their order. -/
def painted (panel : Panel) (frame : Frame) : List (Nat × (Int × Int)) :=
  if frame.flags.on then
    [1, 2, 3].flatMap fun level => (panel.points frame level).map (Prod.mk level)
  else []

/-- The stroke of a point at a level. -/
def strokeOf (inverted : Bool) (painted : Nat × (Int × Int)) : Stroke :=
  { point := painted.2, ink := palette inverted painted.1 }

/-- The sketch of a frame that fills the panel. -/
def sketchOf (panel : Panel) (frame : Frame) : Sketch where
  columns := panel.columns
  rows := panel.rows
  title
  paper := background frame.flags.inverted
  xBounds := panel.xBounds
  yBounds := panel.yBounds
  layers :=
    if frame.flags.on then
      [1, 2, 3].map fun level =>
        { points := panel.points frame level, ink := palette frame.flags.inverted level }
    else []

theorem sketch_ok (hframe : frame.Fills (panel.width, panel.height)) :
    panel.sketch frame = .ok (panel.sketchOf frame) := by
  have hluma : panel.width * panel.height ≤ frame.luma.size := hframe.luma.ge
  rw [sketch, if_pos ⟨hframe.width, hframe.height⟩, layers, sketchOf]
  split
  · simp only [List.mapM_cons, List.mapM_nil, pointsAtLevel_eq_points hluma]
    rfl
  · rfl

theorem strokes_sketchOf (panel : Panel) (frame : Frame) :
    (panel.sketchOf frame).strokes =
      (panel.painted frame).map (strokeOf frame.flags.inverted) := by
  rw [Sketch.strokes, sketchOf, painted]
  split
  · rw [List.flatMap_map, List.map_flatMap]
    simp only [List.map_map]
    rfl
  · rfl

/-- The strokes of the sketch are at the points that are painted. -/
theorem exists_stroke (p : Int × Int → Prop) :
    (∃ stroke ∈ (panel.sketchOf frame).strokes, p stroke.point) ↔
      ∃ painted ∈ panel.painted frame, p painted.2 := by
  simp only [strokes_sketchOf, List.mem_map, exists_exists_and_eq_and, strokeOf]

/-- The points that are painted are those of the pixels above the lowest level. -/
theorem mem_painted {wanted : Nat} {point : Int × Int} :
    (wanted, point) ∈ panel.painted frame ↔
      frame.flags.on = true ∧ 0 < wanted ∧ ∃ x < panel.width, ∃ y < panel.height,
        level (panel.sourceLuma frame x y) = wanted ∧ point = ((x : Int), -(y : Int)) := by
  rw [painted]
  split
  · next hon =>
    simp only [List.mem_flatMap, List.mem_map, Prod.mk.injEq]
    constructor
    · rintro ⟨wanted, hwanted, point, hpoint, rfl, rfl⟩
      exact ⟨hon, List.forall_mem_cons.2 ⟨by decide, by decide⟩ _ hwanted, mem_points.1 hpoint⟩
    · rintro ⟨-, hpos, x, hx, y, hy, hlevel, hpoint⟩
      -- There are four levels, so that one above the lowest has a layer.
      have hlt := level_lt (panel.sourceLuma frame x y)
      refine ⟨wanted, ?_, point, mem_points.2 ⟨x, hx, y, hy, hlevel, hpoint⟩, rfl, rfl⟩
      simp only [List.mem_cons, List.not_mem_nil]
      omega
  · next hoff => simp [hoff]

/-- Points are painted from dim to bright. -/
theorem pairwise_painted (panel : Panel) (frame : Frame) :
    (panel.painted frame).Pairwise (·.1 ≤ ·.1) := by
  rw [painted]
  split
  · refine List.pairwise_flatMap.2 ⟨fun level _ => ?_, ?_⟩
    · exact List.pairwise_map.2 (List.pairwise_of_forall fun _ _ => Nat.le_refl level)
    · refine List.Pairwise.imp ?_ (show [1, 2, 3].Pairwise (· ≤ ·) by decide)
      intro dim bright hle
      simp only [List.forall_mem_map]
      exact fun _ _ _ _ => hle
  · exact .nil

/-! ## Pixels and their dots -/

/-- A panel that is made of whole cells. -/
structure Whole (panel : Panel) : Prop where
  two_le_width : 2 ≤ panel.width
  four_le_height : 4 ≤ panel.height
  two_dvd_width : 2 ∣ panel.width
  four_dvd_height : 4 ∣ panel.height

/-- A panel fits a terminal if its block has a dot for each pixel, has not too many cells, and is no
    larger than what the canvas uses of the terminal. A panel whose pixels cannot be counted in 16
    bits gets too small a block. -/
structure Fits (panel : Panel) (canvas : Canvas) (columns rows : Nat) : Prop where
  width_le : panel.width ≤ 2 * panel.innerColumns
  height_le : panel.height ≤ 4 * panel.innerRows
  area_le : panel.columns * panel.rows ≤ Canvas.mostCells
  columns_le : panel.columns ≤ (canvas.taken columns rows).1
  rows_le : panel.rows ≤ (canvas.taken columns rows).2

/-- On a terminal that has not too many cells, a panel of whole cells fits if its pixels can be
    counted and its block is no larger than the terminal. -/
theorem Whole.fits_iff (whole : panel.Whole) (lawful : canvas.Lawful)
    (harea : columns * rows ≤ Canvas.mostCells) : panel.Fits canvas columns rows ↔
      panel.width < 65536 ∧ panel.height < 65536 ∧
        2 + panel.width / 2 ≤ columns ∧ 2 + panel.height / 4 ≤ rows := by
  obtain ⟨hwidth, hheight, htwo, hfour⟩ := whole
  have htaken := lawful.taken_eq harea
  constructor
  · rintro ⟨hcolumn, hrow, -, hcolumns, hrows⟩
    simp only [htaken, Panel.columns, Panel.rows, innerColumns, innerRows, word] at *
    omega
  · rintro ⟨hcolumn, hrow, hcolumns, hrows⟩
    have hcolumns' : panel.columns ≤ columns := by
      simp only [Panel.columns, innerColumns, word]
      omega
    have hrows' : panel.rows ≤ rows := by
      simp only [Panel.rows, innerRows, word]
      omega
    refine ⟨?_, ?_, (Nat.mul_le_mul hcolumns' hrows').trans harea, ?_, ?_⟩
    · simp only [innerColumns, word]
      omega
    · simp only [innerRows, word]
      omega
    · rwa [htaken]
    · rwa [htaken]

theorem Fits.sketchOf (fits : panel.Fits canvas columns rows) (frame : Frame) :
    (panel.sketchOf frame).Fits canvas columns rows where
  area_le := fits.area_le
  columns_le := fits.columns_le
  rows_le := fits.rows_le
  bounds_lt := by
    have hwidth := fits.width_le
    have hheight := fits.height_le
    simp only [Panel.sketchOf, xBounds, yBounds, innerColumns, innerRows, word,
      List.forall_mem_cons] at *
    exact ⟨by omega, by omega, by omega, by omega, List.forall_mem_nil _⟩

/-- A level is the highest one of the pixels that a cell shows. -/
structure IsBrightest (panel : Panel) (frame : Frame) (x y brightest : Nat) : Prop where
  attained : ∃ column < 2, ∃ row < 4,
    level (panel.sourceLuma frame (2 * x + column) (4 * y + row)) = brightest
  level_le : ∀ column < 2, ∀ row < 4,
    level (panel.sourceLuma frame (2 * x + column) (4 * y + row)) ≤ brightest

/-- If there are as many dots as the extent has places, then nothing is scaled. -/
theorem scaled_eq_self {dots : Nat} {extent : Int} (hdots : 2 ≤ dots) (h : extent = dots - 1)
    (place : Nat) : Sketch.scaled dots extent place = place := by
  rw [Sketch.scaled, h, Int.mul_ediv_cancel _ (by omega), Int.toNat_natCast]

section Whole

variable (whole : panel.Whole) (fits : panel.Fits canvas columns rows)

include whole fits

theorem two_mul_innerColumns (frame : Frame) :
    2 * (panel.sketchOf frame).innerColumns = panel.width := by
  obtain ⟨-, -, htwo, -⟩ := whole
  have hle := fits.width_le
  simp only [Sketch.innerColumns, Panel.sketchOf, Panel.columns, innerColumns, word] at *
  omega

theorem four_mul_innerRows (frame : Frame) :
    4 * (panel.sketchOf frame).innerRows = panel.height := by
  obtain ⟨-, -, -, hfour⟩ := whole
  have hle := fits.height_le
  simp only [Sketch.innerRows, Panel.sketchOf, Panel.rows, innerRows, word] at *
  omega

/-- The point of a pixel falls on the dot of its column and row. -/
theorem fallsOn_iff {px py : Nat} (hx : px < panel.width) (hy : py < panel.height) :
    (panel.sketchOf frame).FallsOn ((px : Int), -(py : Int)) x y ↔ px = x ∧ py = y := by
  have hwidth := whole.two_le_width
  have hheight := whole.four_le_height
  -- There are as many dots as pixels along both axes.
  have hcolumn : Sketch.scaled (2 * (panel.sketchOf frame).innerColumns)
      (panel.xBounds.2 - panel.xBounds.1) (px - panel.xBounds.1) = px := by
    rw [two_mul_innerColumns whole fits, xBounds, Int.sub_zero, Int.sub_zero]
    exact scaled_eq_self hwidth rfl px
  have hrow : Sketch.scaled (4 * (panel.sketchOf frame).innerRows)
      (panel.yBounds.2 - panel.yBounds.1) (panel.yBounds.2 - -(py : Int)) = py := by
    rw [four_mul_innerRows whole fits, yBounds, Int.zero_sub, Int.zero_sub, Int.neg_neg,
      Int.neg_neg]
    exact scaled_eq_self (by omega) rfl py
  constructor
  · rintro ⟨-, -, -, -, -, -, rfl, rfl⟩
    exact ⟨hcolumn.symm, hrow.symm⟩
  · rintro ⟨rfl, rfl⟩
    constructor
    case column_eq => exact hcolumn
    case row_eq => exact hrow
    all_goals
      simp only [Panel.sketchOf, xBounds, yBounds]
      omega

/-- A pixel falls in the cell of which it is a part. -/
theorem fallsIn_iff {px py : Nat} (hx : px < panel.width) (hy : py < panel.height) :
    (panel.sketchOf frame).FallsIn ((px : Int), -(py : Int)) x y ↔
      ∃ column < 2, ∃ row < 4, px = 2 * x + column ∧ py = 4 * y + row := by
  simp only [Sketch.FallsIn, fallsOn_iff whole fits hx hy]

/-- A dot is painted if the panel is on and its pixel is not at the lowest level. -/
theorem exists_stroke_iff (hx : x < panel.width) (hy : y < panel.height) :
    (∃ stroke ∈ (panel.sketchOf frame).strokes,
      (panel.sketchOf frame).FallsOn stroke.point x y) ↔
        frame.flags.on = true ∧ 64 ≤ (panel.sourceLuma frame x y).toNat := by
  rw [exists_stroke ((panel.sketchOf frame).FallsOn · x y), ← level_pos_iff]
  constructor
  · rintro ⟨⟨wanted, point⟩, hpainted, hfalls⟩
    obtain ⟨hon, hpos, px, hpx, py, hpy, rfl, rfl⟩ := mem_painted.1 hpainted
    obtain ⟨rfl, rfl⟩ := (fallsOn_iff whole fits hpx hpy).1 hfalls
    exact ⟨hon, hpos⟩
  · rintro ⟨hon, hpos⟩
    exact ⟨_, mem_painted.2 ⟨hon, hpos, x, hx, y, hy, rfl, rfl⟩,
      (fallsOn_iff whole fits hx hy).2 ⟨rfl, rfl⟩⟩

/-- The last point that is painted in a cell has the level of its brightest pixel. -/
theorem exists_last_painted (hx : x < panel.width / 2) (hy : y < panel.height / 4)
    (h : ∃ painted ∈ panel.painted frame, (panel.sketchOf frame).FallsIn painted.2 x y) :
    ∃ before last after, panel.painted frame = before ++ last :: after ∧
      (panel.sketchOf frame).FallsIn last.2 x y ∧
      (∀ later ∈ after, ¬ (panel.sketchOf frame).FallsIn later.2 x y) ∧
      panel.IsBrightest frame x y last.1 := by
  obtain ⟨before, ⟨wanted, point⟩, after, hpainted, hlast, hafter⟩ := exists_last h
  have hmem : (wanted, point) ∈ panel.painted frame :=
    hpainted ▸ List.mem_append_right _ List.mem_cons_self
  obtain ⟨hon, -, px, hpx, py, hpy, hlevel, rfl⟩ := mem_painted.1 hmem
  obtain ⟨column, hcolumn, row, hrow, rfl, rfl⟩ := (fallsIn_iff whole fits hpx hpy).1 hlast
  refine ⟨before, _, after, hpainted, hlast, hafter, ⟨column, hcolumn, row, hrow, hlevel⟩, ?_⟩
  intro column' hcolumn' row' hrow'
  rcases Nat.eq_zero_or_pos (level (panel.sourceLuma frame (2 * x + column') (4 * y + row'))) with
    hzero | hpos
  · exact hzero ▸ Nat.zero_le _
  · -- A pixel above the lowest level is painted, and nothing in the cell after the last point.
    have hpx' : 2 * x + column' < panel.width := by omega
    have hpy' : 4 * y + row' < panel.height := by omega
    have hmem' := mem_painted.2 ⟨hon, hpos, _, hpx', _, hpy', rfl, rfl⟩
    have hfalls : (panel.sketchOf frame).FallsIn
        (((2 * x + column' : Nat) : Int), -((4 * y + row' : Nat) : Int)) x y :=
      (fallsIn_iff whole fits hpx' hpy').2 ⟨column', hcolumn', row', hrow', rfl, rfl⟩
    have hsorted := panel.pairwise_painted frame
    rw [hpainted] at hmem' hsorted
    rcases List.mem_append.1 hmem' with hbefore | hrest
    · exact (List.pairwise_append.1 hsorted).2.2 _ hbefore _ List.mem_cons_self
    · rcases List.mem_cons.1 hrest with heq | hlater
      · exact (congrArg Prod.fst heq).le
      · exact absurd hfalls (hafter _ hlater)

end Whole

/-! ## The panel -/

/-- The greys, darkest first. -/
def greys : List Colour := [.black, .darkGray, .gray, .white]

theorem getElem?_greys (inverted : Bool) {m : Nat} (h : m < 4) :
    (if inverted then greys.reverse else greys)[m]? = some (palette inverted m) := by
  revert m inverted
  decide

/-- A cell in which something is painted is in the grey of its brightest pixel. -/
theorem exists_ink (lawful : canvas.Lawful) (whole : panel.Whole)
    (fits : panel.Fits canvas columns rows) (hx : x < panel.width / 2) (hy : y < panel.height / 4)
    (h : ∃ stroke ∈ (panel.sketchOf frame).strokes,
      (panel.sketchOf frame).FallsIn stroke.point x y) :
    ∃ cell, (canvas.render columns rows (panel.sketchOf frame)).cell? (1 + x) (1 + y) = some cell ∧
      ∃ brightest, panel.IsBrightest frame x y brightest ∧
        (if frame.flags.inverted then greys.reverse else greys)[brightest]? = some cell.ink := by
  have hcolumns := two_mul_innerColumns whole fits frame
  have hrows := four_mul_innerRows whole fits frame
  obtain ⟨before, last, after, hpainted, hlast, hafter, hbrightest⟩ :=
    exists_last_painted whole fits hx hy <|
      (exists_stroke ((panel.sketchOf frame).FallsIn · x y)).1 h
  have hstrokes : (panel.sketchOf frame).strokes =
      before.map (strokeOf frame.flags.inverted) ++
        strokeOf frame.flags.inverted last :: after.map (strokeOf frame.flags.inverted) := by
    rw [strokes_sketchOf, hpainted, List.map_append, List.map_cons]
  obtain ⟨cell, hcell, hink⟩ := lawful.ink_eq (fits.sketchOf frame) (by omega) (by omega) hstrokes
    hlast (List.forall_mem_map.2 hafter)
  refine ⟨cell, hcell, last.1, hbrightest, ?_⟩
  obtain ⟨column, -, row, -, hlevel⟩ := hbrightest.attained
  rw [getElem?_greys _ (hlevel ▸ level_lt _), hink]
  rfl

/-- What a terminal shows of a frame, on a canvas that can be relied on. The panel is made of whole
    cells and fits the terminal, and the frame fills it. Drawing succeeds. The dot of a column and a
    row is set if the panel is on and its pixel, counted from the other end along a mirrored axis,
    has a brightness of at least 64. A cell with a dot has the colour of the highest of the four
    levels of brightness among its pixels, and a cell without one stays as the block left it. -/
theorem draw_shows (lawful : canvas.Lawful) (whole : panel.Whole)
    (fits : panel.Fits canvas columns rows) (hframe : frame.Fills (panel.width, panel.height)) :
    ∃ screen, panel.draw columns rows frame canvas = .ok screen ∧
      screen.columns = columns ∧ screen.rows = rows ∧
      (∀ x < panel.width, ∀ y < panel.height,
        screen.dot x y = true ↔
          frame.flags.on = true ∧ 64 ≤ (panel.sourceLuma frame x y).toNat) ∧
      ∀ x < panel.width / 2, ∀ y < panel.height / 4, ∃ cell,
        screen.cell? (1 + x) (1 + y) = some cell ∧
        ((∃ column < 2, ∃ row < 4, screen.dot (2 * x + column) (4 * y + row) = true) →
          ∃ brightest, panel.IsBrightest frame x y brightest ∧
            (if frame.flags.inverted then greys.reverse else greys)[brightest]? = some cell.ink) ∧
        ((∀ column < 2, ∀ row < 4, screen.dot (2 * x + column) (4 * y + row) = false) →
          cell = { paper := if frame.flags.inverted then .white else .black }) := by
  have hcolumns := two_mul_innerColumns whole fits frame
  have hrows := four_mul_innerRows whole fits frame
  have hfits := fits.sketchOf frame
  refine ⟨canvas.render columns rows (panel.sketchOf frame), ?_, lawful.columns_eq ..,
    lawful.rows_eq .., fun x hx y hy => ?_, fun x hx y hy => ?_⟩
  · rw [draw, sketch_ok hframe]
    rfl
  · rw [lawful.dot_iff hfits (by omega) (by omega), exists_stroke_iff whole fits hx hy]
  · have hdot := lawful.exists_dot_iff hfits (x := x) (y := y) (by omega) (by omega)
    by_cases hstroke : ∃ stroke ∈ (panel.sketchOf frame).strokes,
      (panel.sketchOf frame).FallsIn stroke.point x y
    · obtain ⟨cell, hcell, hink⟩ := exists_ink lawful whole fits hx hy hstroke
      refine ⟨cell, hcell, fun _ => hink, fun hnone => ?_⟩
      obtain ⟨column, hcolumn, row, hrow, hset⟩ := hdot.2 hstroke
      exact absurd hset (Bool.eq_false_iff.1 (hnone column hcolumn row hrow))
    · refine ⟨_, lawful.blank hfits (by omega) (by omega) ?_, fun hsome => ?_, fun _ => ?_⟩
      · exact fun stroke hmem hfalls => hstroke ⟨stroke, hmem, hfalls⟩
      · exact absurd (hdot.1 hsome) hstroke
      · rw [Panel.sketchOf, background]
        cases frame.flags.inverted <;> rfl

/-- Four by four pixels, shown in reverse and from the right. In the first row the first pixel is
    bright, the second dim, and the last too dim to be seen. -/
def glint : Frame :=
  { width := 4
    height := 4
    luma := #[255, 100, 0, 30, 0, 0, 0, 0, 0, 0, 0, 0, 0, 0, 0, 0]
    flags := { on := true, inverted := true, mirrorX := true } }

theorem draw_shows_glint :
    ∃ screen, draw { width := 4, height := 4 } 8 5 glint .braille = .ok screen ∧
    screen.dot 3 0 = true ∧ screen.dot 2 0 = true ∧ screen.dot 0 0 = false ∧
    (∃ cell, screen.cell? 2 1 = some cell ∧ cell.ink = .black) ∧
    screen.cell? 1 1 = some { paper := .white } := by
  have hwhole : Whole { width := 4, height := 4 } := ⟨by decide, by decide, by decide, by decide⟩
  have hfits : Fits { width := 4, height := 4 } .braille 8 5 :=
    (hwhole.fits_iff Canvas.lawful_braille (by decide)).2
      ⟨by decide, by decide, by decide, by decide⟩
  have hfills : glint.Fills (4, 4) := ⟨rfl, rfl, rfl⟩
  obtain ⟨screen, hdraw, -, -, hdots, hcells⟩ :=
    draw_shows Canvas.lawful_braille hwhole hfits hfills
  have hbright : screen.dot 3 0 = true := (hdots 3 (by decide) 0 (by decide)).2 (by decide)
  have hleft : ∀ column < 2, ∀ row < 4, screen.dot (2 * 0 + column) (4 * 0 + row) = false := by
    intro column hcolumn row hrow
    rw [Bool.eq_false_iff, Ne, hdots _ (by dsimp; omega) _ (by dsimp; omega)]
    revert column row
    decide
  refine ⟨screen, hdraw, hbright, (hdots 2 (by decide) 0 (by decide)).2 (by decide),
    hleft 0 (by decide) 0 (by decide), ?_, ?_⟩
  · obtain ⟨cell, hcell, hcolour, -⟩ := hcells 1 (by decide) 0 (by decide)
    obtain ⟨brightest, ⟨⟨column, -, row, -, hlevel⟩, hupper⟩, hink⟩ :=
      hcolour ⟨1, by decide, 0, by decide, hbright⟩
    have hthree : 3 ≤ brightest := hupper 1 (by decide) 0 (by decide)
    obtain rfl : brightest = 3 := by
      have := level_lt (sourceLuma { width := 4, height := 4 } glint (2 * 1 + column) (4 * 0 + row))
      omega
    exact ⟨cell, hcell, (Option.some.inj hink).symm⟩
  · obtain ⟨cell, hcell, -, hblank⟩ := hcells 0 (by decide) 0 (by decide)
    rw [hcell, hblank hleft]
    rfl

end Panel

end Handheld
