import Handheld.Proofs.Canvas
import Mathlib.Data.List.Induction
import Mathlib.Data.Nat.Bitwise

/-!
# The canvas of braille characters

`Canvas.braille` paints strokes one after the other, each over all that was there, and what they
leave is told cell by cell.

* A point falls in one cell, and sets a dot of it and its colour (`Sketch.touch`). The strokes thus
  come down to the mark of each cell (`Sketch.getElem?_paint`).
* A dot of the mark is set once any stroke sets it (`Sketch.testBit_markAt`), while the colour is
  that of the last stroke that fell in the cell (`Sketch.ink_markAt`).
* An area that is clipped is not larger than it was (`Canvas.clip_le`), so that the cells inside the
  border are on the screen and show their marks (`Canvas.cell?_braille`).

`Canvas.lawful_braille` reads from this that the canvas can be relied on.
-/

namespace Handheld

namespace Sketch

variable {sketch : Sketch} {point : Int × Int} {stroke : Stroke} {x y column row : Nat}

/-! ## Where points fall -/

theorem dotOf?_eq_some_iff : sketch.dotOf? point = some (x, y) ↔ sketch.FallsOn point x y := by
  rw [dotOf?, Option.ite_none_right_eq_some, Option.some.injEq, Prod.mk.injEq]
  constructor
  · rintro ⟨⟨hleft, hright, hbottom, htop, hx, hy⟩, hcolumn, hrow⟩
    exact ⟨hleft, hright, hbottom, htop, hx, hy, hcolumn, hrow⟩
  · rintro ⟨hleft, hright, hbottom, htop, hx, hy, hcolumn, hrow⟩
    exact ⟨⟨hleft, hright, hbottom, htop, hx, hy⟩, hcolumn, hrow⟩

/-- A distance that is not past the extent is scaled to one of the dots. -/
theorem scaled_lt {distance extent : Int} {dots : Nat} (hdots : 0 < dots) (hextent : 0 < extent)
    (h : distance ≤ extent) : scaled dots extent distance < dots := by
  have hle : distance * (dots - 1) / extent ≤ dots - 1 :=
    Int.ediv_le_of_le_mul hextent <| Int.mul_comm extent _ ▸
      Int.mul_le_mul_of_nonneg_right h (by omega)
  rw [scaled]
  omega

/-- All points within the bounds fall on dots inside the border. -/
theorem FallsOn.lt (h : sketch.FallsOn point x y) (hcolumns : 0 < sketch.innerColumns)
    (hrows : 0 < sketch.innerRows) : x < 2 * sketch.innerColumns ∧ y < 4 * sketch.innerRows := by
  obtain ⟨hleft, hright, hbottom, htop, hx, hy, rfl, rfl⟩ := h
  exact ⟨scaled_lt (by omega) (by omega) (by omega), scaled_lt (by omega) (by omega) (by omega)⟩

/-- The bit that a point sets in a cell, if it falls in that cell. -/
def bitIn? (sketch : Sketch) (cell : Nat) (point : Int × Int) : Option Nat :=
  (sketch.dotOf? point).bind fun dot =>
    if dot.2 / 4 * sketch.innerColumns + dot.1 / 2 = cell then
      some (dotBit (dot.1 % 2) (dot.2 % 4))
    else none

theorem bitIn?_eq_some_iff {bit : Nat} (hx : x < sketch.innerColumns) (hy : y < sketch.innerRows) :
    sketch.bitIn? (y * sketch.innerColumns + x) point = some bit ↔
      ∃ column < 2, ∃ row < 4,
        sketch.FallsOn point (2 * x + column) (4 * y + row) ∧ dotBit column row = bit := by
  rw [bitIn?, Option.bind_eq_some_iff]
  constructor
  · rintro ⟨⟨dotX, dotY⟩, hdot, hsome⟩
    obtain ⟨hplace, hbit⟩ := Option.ite_none_right_eq_some.1 hsome
    have hfalls := dotOf?_eq_some_iff.1 hdot
    obtain ⟨hdotX, -⟩ := hfalls.lt (Nat.zero_lt_of_lt hx) (Nat.zero_lt_of_lt hy)
    -- The place among the marks tells the column and the row, since the dot is inside.
    obtain ⟨rfl, rfl⟩ := place_inj hx (by omega) hplace.symm
    refine ⟨dotX % 2, Nat.mod_lt _ (by decide), dotY % 4, Nat.mod_lt _ (by decide), ?_,
      Option.some.inj hbit⟩
    rwa [Nat.div_add_mod, Nat.div_add_mod]
  · rintro ⟨column, hcolumn, row, hrow, hfalls, rfl⟩
    refine ⟨_, dotOf?_eq_some_iff.2 hfalls, ?_⟩
    dsimp only
    rw [Nat.mul_add_div (by decide), Nat.mul_add_div (by decide), Nat.mul_add_mod, Nat.mul_add_mod,
      Nat.div_eq_of_lt hcolumn, Nat.div_eq_of_lt hrow, Nat.mod_eq_of_lt hcolumn,
      Nat.mod_eq_of_lt hrow, Nat.add_zero, Nat.add_zero, if_pos rfl]

/-- A point sets no bit in a cell in which it does not fall. -/
theorem bitIn?_eq_none (hx : x < sketch.innerColumns) (hy : y < sketch.innerRows)
    (h : ¬ sketch.FallsIn point x y) :
    sketch.bitIn? (y * sketch.innerColumns + x) point = none := by
  refine Option.eq_none_iff_forall_ne_some.2 fun bit hbit => h ?_
  obtain ⟨column, hcolumn, row, hrow, hfalls, -⟩ := (bitIn?_eq_some_iff hx hy).1 hbit
  exact ⟨column, hcolumn, row, hrow, hfalls⟩

/-! ## Marks -/

/-- The mark of a cell after one more stroke. -/
def touch (sketch : Sketch) (cell : Nat) (mark : Mark) (stroke : Stroke) : Mark :=
  match sketch.bitIn? cell stroke.point with
  | none => mark
  | some bit => { dots := mark.dots ||| bit, ink := stroke.ink }

/-- The mark that a sketch leaves in a cell, by its column and row inside the border. -/
def markAt (sketch : Sketch) (x y : Nat) : Mark :=
  sketch.strokes.foldl (sketch.touch (y * sketch.innerColumns + x)) {}

theorem getElem?_plot (sketch : Sketch) (marks : Array Mark) (stroke : Stroke) (cell : Nat) :
    (sketch.plot marks stroke)[cell]? = marks[cell]?.map (sketch.touch cell · stroke) := by
  unfold plot touch bitIn?
  cases sketch.dotOf? stroke.point with
  | none => simp
  | some dot =>
    rw [Array.getElem?_modify]
    by_cases h : dot.2 / 4 * sketch.innerColumns + dot.1 / 2 = cell <;> simp [h]

theorem getElem?_foldl_plot (sketch : Sketch) (strokes : List Stroke) (marks : Array Mark)
    (cell : Nat) :
    (strokes.foldl sketch.plot marks)[cell]? =
      marks[cell]?.map (strokes.foldl (sketch.touch cell)) := by
  induction strokes generalizing marks with
  | nil => simp
  | cons stroke strokes ih =>
    rw [List.foldl_cons, ih, getElem?_plot, Option.map_map]
    rfl

/-- A cell of the grid sees no more than the strokes that fall in it. -/
theorem getElem?_paint (hx : x < sketch.innerColumns) (hy : y < sketch.innerRows) :
    sketch.paint[y * sketch.innerColumns + x]? = some (sketch.markAt x y) := by
  rw [paint, getElem?_foldl_plot, Array.getElem?_replicate, if_pos (place_lt_mul hx hy)]
  rfl

theorem testBit_foldl_touch (sketch : Sketch) (cell : Nat) (strokes : List Stroke) (mark : Mark)
    (k : Nat) :
    (strokes.foldl (sketch.touch cell) mark).dots.testBit k =
      (mark.dots.testBit k ||
        strokes.any fun stroke => (sketch.bitIn? cell stroke.point).any (·.testBit k)) := by
  induction strokes generalizing mark with
  | nil => exact (Bool.or_false _).symm
  | cons stroke strokes ih =>
    rw [List.foldl_cons, ih, touch, List.any_cons, ← Bool.or_assoc]
    cases sketch.bitIn? cell stroke.point with
    | none => rw [Option.any_none, Bool.or_false]
    | some bit => rw [Option.any_some, Nat.testBit_or]

/-- Strokes that fall elsewhere leave a mark alone. -/
theorem foldl_touch_eq_self {cell : Nat} {strokes : List Stroke}
    (h : ∀ stroke ∈ strokes, sketch.bitIn? cell stroke.point = none) (mark : Mark) :
    strokes.foldl (sketch.touch cell) mark = mark := by
  induction strokes with
  | nil => rfl
  | cons stroke strokes ih =>
    rw [List.forall_mem_cons] at h
    rw [List.foldl_cons, touch, h.1]
    exact ih h.2

/-! ## The mark of a cell -/

theorem testBit_dotBit : ∀ column < 2, ∀ row < 4, ∀ column' < 2, ∀ row' < 4,
    (dotBit column row).testBit (dotIndex column' row') =
      decide (column = column' ∧ row = row') := by
  decide

theorem dotBit_lt : ∀ column < 2, ∀ row < 4, dotBit column row < 2 ^ 8 := by decide

section Inside

variable (hx : x < sketch.innerColumns) (hy : y < sketch.innerRows)

include hx hy

/-- The dots of a mark are those that its cell's strokes set. -/
theorem testBit_markAt_iff {k : Nat} :
    (sketch.markAt x y).dots.testBit k = true ↔
      ∃ stroke ∈ sketch.strokes, ∃ column < 2, ∃ row < 4,
        sketch.FallsOn stroke.point (2 * x + column) (4 * y + row) ∧
          (dotBit column row).testBit k = true := by
  rw [markAt, testBit_foldl_touch, Nat.zero_testBit, Bool.false_or, List.any_eq_true]
  simp only [Option.any_eq_true, bitIn?_eq_some_iff hx hy]
  constructor
  · rintro ⟨stroke, hstroke, _, ⟨column, hcolumn, row, hrow, hfalls, rfl⟩, hset⟩
    exact ⟨stroke, hstroke, column, hcolumn, row, hrow, hfalls, hset⟩
  · rintro ⟨stroke, hstroke, column, hcolumn, row, hrow, hfalls, hset⟩
    exact ⟨stroke, hstroke, _, ⟨column, hcolumn, row, hrow, hfalls, rfl⟩, hset⟩

/-- A dot is set if a point falls on it. -/
theorem testBit_markAt (hcolumn : column < 2) (hrow : row < 4) :
    (sketch.markAt x y).dots.testBit (dotIndex column row) = true ↔
      ∃ stroke ∈ sketch.strokes,
        sketch.FallsOn stroke.point (2 * x + column) (4 * y + row) := by
  rw [testBit_markAt_iff hx hy]
  constructor
  · rintro ⟨stroke, hstroke, column', hcolumn', row', hrow', hfalls, hset⟩
    rw [testBit_dotBit column' hcolumn' row' hrow' column hcolumn row hrow,
      decide_eq_true_iff] at hset
    obtain ⟨rfl, rfl⟩ := hset
    exact ⟨stroke, hstroke, hfalls⟩
  · rintro ⟨stroke, hstroke, hfalls⟩
    refine ⟨stroke, hstroke, column, hcolumn, row, hrow, hfalls, ?_⟩
    rw [testBit_dotBit column hcolumn row hrow column hcolumn row hrow]
    exact decide_eq_true ⟨rfl, rfl⟩

theorem dots_markAt_lt : (sketch.markAt x y).dots < 2 ^ 8 := by
  refine Nat.lt_pow_two_of_testBit _ fun k hk => ?_
  rw [← Bool.not_eq_true, testBit_markAt_iff hx hy]
  rintro ⟨stroke, -, column, hcolumn, row, hrow, -, hset⟩
  rw [Nat.testBit_lt_two_pow] at hset
  · exact Bool.false_ne_true hset
  · exact (dotBit_lt column hcolumn row hrow).trans_le (Nat.pow_le_pow_right (by decide) hk)

/-- A cell in which no point falls has no mark. -/
theorem markAt_eq_empty (h : ∀ stroke ∈ sketch.strokes, ¬ sketch.FallsIn stroke.point x y) :
    sketch.markAt x y = {} :=
  foldl_touch_eq_self (fun stroke hstroke => bitIn?_eq_none hx hy (h stroke hstroke)) {}

/-- A cell in which a point falls has a dot. -/
theorem dots_markAt_ne_zero (hstroke : stroke ∈ sketch.strokes)
    (h : sketch.FallsIn stroke.point x y) : (sketch.markAt x y).dots ≠ 0 := by
  obtain ⟨column, hcolumn, row, hrow, hfalls⟩ := h
  have hset := (testBit_markAt hx hy hcolumn hrow).2 ⟨stroke, hstroke, hfalls⟩
  intro hzero
  rw [hzero, Nat.zero_testBit] at hset
  exact Bool.false_ne_true hset

/-- The last point that falls in a cell gives it its colour. -/
theorem ink_markAt {before after : List Stroke}
    (hstrokes : sketch.strokes = before ++ stroke :: after) (h : sketch.FallsIn stroke.point x y)
    (hafter : ∀ later ∈ after, ¬ sketch.FallsIn later.point x y) :
    (sketch.markAt x y).ink = stroke.ink := by
  obtain ⟨column, hcolumn, row, hrow, hfalls⟩ := h
  have hbit := (bitIn?_eq_some_iff hx hy).2 ⟨column, hcolumn, row, hrow, hfalls, rfl⟩
  rw [markAt, hstrokes, List.foldl_append, List.foldl_cons,
    foldl_touch_eq_self fun later hlater => bitIn?_eq_none hx hy (hafter later hlater), touch, hbit]

end Inside

/-! ## Cells -/

theorem toNat_braille {dots : Nat} (h : dots < 2 ^ 8) : (braille dots).toNat = 0x2800 + dots := by
  have hvalid : (0x2800 + dots).isValidChar := .inl (by omega)
  rw [braille, Char.ofNat, dif_pos hvalid]
  rfl

/-- The cell inside the border that shows a mark. -/
def cellOf (sketch : Sketch) (mark : Mark) : Cell :=
  if mark.dots = 0 then { paper := sketch.paper }
  else { glyph := braille mark.dots, ink := mark.ink }

theorem dot_cellOf (sketch : Sketch) {mark : Mark} (h : mark.dots < 2 ^ 8) (column row : Nat) :
    (sketch.cellOf mark).dot column row = mark.dots.testBit (dotIndex column row) := by
  have hblank : ' '.toNat - 0x2800 = 0 := by decide
  rw [cellOf, Cell.dot]
  split
  · next hzero => rw [hzero, hblank]
  · next hdots => rw [toNat_braille h, Nat.add_sub_cancel_left]

theorem cellAt_paint (hx : x < sketch.innerColumns) (hy : y < sketch.innerRows) :
    sketch.cellAt sketch.paint (1 + x) (1 + y) = sketch.cellOf (sketch.markAt x y) := by
  have hcolumns : x < sketch.columns - 2 := hx
  have hrows : y < sketch.rows - 2 := hy
  rw [cellAt, if_neg (by omega), if_neg (by omega), Nat.add_sub_cancel_left,
    Nat.add_sub_cancel_left, Array.getD_eq_getD_getElem?, getElem?_paint hx hy]
  rfl

end Sketch

namespace Canvas

variable {columns rows x y : Nat} {sketch : Sketch}

/-! ## Clipped areas -/

theorem root_mul_root_le (n : Nat) : root n * root n ≤ n := by
  rw [root]
  induction List.range 16 with
  | nil => exact Nat.zero_le n
  | cons bit bits ih =>
    rw [List.foldr_cons]
    dsimp only
    split
    · assumption
    · exact ih

/-- The root for one side of an area that is too large is no longer than that side. -/
theorem root_le {long short : Nat} (h : mostCells < long * short) :
    root (mostCells * long / short) ≤ long := by
  have hshort : 0 < short := Nat.pos_of_mul_pos_left (Nat.zero_lt_of_lt h)
  refine Nat.mul_self_le_mul_self_iff.1 ?_
  calc root (mostCells * long / short) * root (mostCells * long / short)
    _ ≤ mostCells * long / short := root_mul_root_le _
    _ ≤ long * short * long / short := Nat.div_le_div_right (Nat.mul_le_mul_right long h.le)
    _ = long * long := by rw [Nat.mul_right_comm, Nat.mul_div_cancel _ hshort]

theorem clip_le (columns rows : Nat) :
    (clip columns rows).1 ≤ columns ∧ (clip columns rows).2 ≤ rows := by
  rw [clip]
  split
  · exact ⟨Nat.le_refl _, Nat.le_refl _⟩
  · next h =>
    rw [Nat.not_le] at h
    exact ⟨root_le h, root_le (Nat.mul_comm columns rows ▸ h)⟩

example : clip 400 200 = (362, 181) := by decide

/-! ## The canvas -/

/-- The cells inside the border of a sketch that fits show their marks. -/
theorem cell?_braille (fits : sketch.Fits braille columns rows) (hx : x < sketch.innerColumns)
    (hy : y < sketch.innerRows) :
    (braille.render columns rows sketch).cell? (1 + x) (1 + y) =
      some (sketch.cellOf (sketch.markAt x y)) := by
  obtain ⟨harea, hcolumns, hrows, -⟩ := fits
  have hclip : clip sketch.columns sketch.rows = (sketch.columns, sketch.rows) := if_pos harea
  obtain ⟨hright, hbottom⟩ := clip_le columns rows
  have hx' : x < sketch.columns - 2 := hx
  have hy' : y < sketch.rows - 2 := hy
  simp only [braille, hclip] at hcolumns hrows ⊢
  rw [Screen.cell?_ofFn _ (by omega) (by omega), if_pos ⟨by omega, by omega⟩]
  exact congrArg some (Sketch.cellAt_paint hx hy)

/-- The canvas of braille characters can be relied on. -/
theorem lawful_braille : braille.Lawful where
  taken_eq h := if_pos h
  columns_eq _ _ _ := rfl
  rows_eq _ _ _ := rfl
  dot_iff {columns rows sketch} fits {x y} hx hy := by
    have hcolumn : x % 2 < 2 := Nat.mod_lt _ (by decide)
    have hrow : y % 4 < 4 := Nat.mod_lt _ (by decide)
    have hx' : x / 2 < sketch.innerColumns := by omega
    have hy' : y / 4 < sketch.innerRows := by omega
    rw [Screen.dot, cell?_braille fits hx' hy', Option.any_some,
      sketch.dot_cellOf (Sketch.dots_markAt_lt hx' hy'),
      Sketch.testBit_markAt hx' hy' hcolumn hrow, Nat.div_add_mod, Nat.div_add_mod]
  ink_eq {columns rows sketch} fits {x y} hx hy {before after last} hstrokes hlast hafter := by
    have hmem : last ∈ sketch.strokes := hstrokes ▸ List.mem_append_right _ List.mem_cons_self
    refine ⟨_, cell?_braille fits hx hy, ?_⟩
    rw [Sketch.cellOf, if_neg (Sketch.dots_markAt_ne_zero hx hy hmem hlast)]
    exact Sketch.ink_markAt hx hy hstrokes hlast hafter
  blank {columns rows sketch} fits {x y} hx hy h := by
    rw [cell?_braille fits hx hy, Sketch.markAt_eq_empty hx hy h]
    rfl

end Canvas

end Handheld
