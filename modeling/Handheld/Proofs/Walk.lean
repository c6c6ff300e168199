import Handheld.Proofs.Sampling
import Mathlib.Data.List.Nodup

/-!
# A sample in place

`Afterglow.sample` says what a sample makes of the brightness, but not how it is come by. On the
console three nested loops change the brightness in place: they go over the whole pages of the
picture memory, the bytes of a page and the rows of a byte, compute a place of the grid for each
row, and read the bits off a copy of the byte that is shifted from row to row. Such loops can miss
the end of either grid, or come to a place twice.

* `Afterglow.walk`: the loops, in place. Reading or writing past the end of a grid is a fault, at
  which the brightness stays as it then is, and every place that is changed is noted.
* `Walk.loop_run`: a loop whose turns succeed adds up to a fold.
* `walk_of_size`: over a picture memory of the right size a walk makes no fault, comes to the same
  brightness as a sample, and has changed the places `Walk.places`.
* `Walk.count_places`: those are the places of the whole pages, each of them once.
* `sample_pixelwise` puts the two together with what a sample does to one pixel.
-/

namespace Handheld

/-- A brightness that is being changed in place. -/
structure Walk where
  luma : Array UInt8
  /-- The places that were changed so far, the first one first. -/
  touched : List Nat := []
  deriving DecidableEq, Repr

namespace Walk

/-- What changes a brightness in place and may break off with a fault. -/
abbrev InPlace := EStateM Fault Walk

/-- Change the brightness at a place. -/
def touch (place : Nat) (change : UInt8 → UInt8) : InPlace Unit := do
  let walk ← get
  if place < walk.luma.size then
    set { luma := walk.luma.modify place change, touched := walk.touched ++ [place] : Walk }
  else throw (.outOfBounds walk.luma.size place)

/-- A brightness less `decay`, or 0 if it is less than that. -/
def dim (decay level : UInt8) : UInt8 := if decay ≤ level then level - decay else 0

/-- A brightness and `increase`, or 255 if it is more than that. -/
def brighten (increase level : UInt8) : UInt8 :=
  if level ≤ 255 - increase then level + increase else 255

/-- A pixel is dimmed first, and then brightened if it is lit. -/
def refresh (decay increase : UInt8) (lit : Bool) (level : UInt8) : UInt8 :=
  if lit then brighten increase (dim decay level) else dim decay level

/-- Refresh the pixel in column `x` of a row. The lowest bit of `bits` says whether it is lit; what
    is left are the bits of the rows below. -/
def row (width : Nat) (decay increase : UInt8) (x : Nat) (bits : UInt8) (row : Nat) :
    InPlace UInt8 := do
  touch (row * width + x) (refresh decay increase (bits &&& 1 = 1))
  return bits >>> 1

/-- Refresh the pixels of a number of rows in a byte, from the top. -/
def rows (width : Nat) (decay increase : UInt8) (page x : Nat) (byte : UInt8) (count : Nat) :
    InPlace UInt8 :=
  (List.range count).foldlM (fun bits i => row width decay increase x bits (page * 8 + i)) byte

/-- Refresh the pixels of one byte. -/
def column (width : Nat) (decay increase : UInt8) (page x : Nat) (byte : UInt8) :
    InPlace Unit := do
  let _ ← rows width decay increase page x byte 8

/-- Refresh the pixels of one page, column by column. -/
def page (width : Nat) (decay increase : UInt8) (grid : Array UInt8) (page : Nat) : InPlace Unit :=
  forM (List.range width) fun x => do
    column width decay increase page x (← MonadExcept.ofExcept (levelAt grid (page * width + x)))

/-- The places of one byte, from the top. -/
def columnPlaces (width page x : Nat) : List Nat :=
  (List.range 8).map fun row => (page * 8 + row) * width + x

/-- The places of one page. -/
def pagePlaces (width page : Nat) : List Nat := (List.range width).flatMap (columnPlaces width page)

/-- The places of a number of pages. -/
def places (width pages : Nat) : List Nat := (List.range pages).flatMap (pagePlaces width)

end Walk

/-- Sample a picture memory in place: as many whole pages as it has, if it has the right length. -/
def Afterglow.walk (glow : Afterglow) (grid : Array UInt8) (decay increase : UInt8) :
    Walk.InPlace Unit :=
  if grid.size ≠ glow.width * glow.height / 8 then throw .gridLength
  else if glow.width = 0 then pure ()
  else forM (List.range (grid.size / glow.width)) (Walk.page glow.width decay increase grid)

namespace Walk

variable {width x y pages : Nat} {decay increase : UInt8} {grid : Array UInt8} {walk : Walk}

/-! ## One pixel -/

theorem toNat_dim (level : UInt8) : (dim decay level).toNat = level.toNat - decay.toNat := by
  rw [dim]
  split
  · next h => rw [UInt8.toNat_sub_of_le _ _ h]
  · next h =>
    rw [UInt8.le_iff_toNat_le] at h
    exact (Nat.sub_eq_zero_of_le (by omega)).symm

theorem toNat_brighten (level : UInt8) :
    (brighten increase level).toNat = min 255 (level.toNat + increase.toNat) := by
  have hlt := increase.toNat_lt
  have hroom : (255 - increase).toNat = 255 - increase.toNat :=
    UInt8.toNat_sub_of_le _ _ (UInt8.le_iff_toNat_le.2 (Nat.le_of_lt_succ hlt))
  rw [brighten]
  split
  · next h =>
    rw [UInt8.le_iff_toNat_le, hroom] at h
    rw [UInt8.toNat_add, Nat.mod_eq_of_lt (by omega)]
    omega
  · next h =>
    rw [UInt8.le_iff_toNat_le, hroom] at h
    change 255 = _
    omega

/-- Dimmed first and brightened then, a pixel has faded. -/
theorem refresh_eq_fade (lit : Bool) :
    refresh decay increase lit = Afterglow.fade decay increase lit := by
  funext level
  rw [← UInt8.toNat_inj, Afterglow.toNat_fade, refresh]
  cases lit with
  | true => rw [if_pos rfl, toNat_brighten, toNat_dim, if_pos rfl]
  | false =>
    have hlt := level.toNat_lt
    rw [if_neg Bool.false_ne_true, toNat_dim, if_neg Bool.false_ne_true]
    omega

/-- A bit of a byte is the lowest one of a shifted copy. -/
theorem lowest_shifted {bits byte : UInt8} {row : Nat} (h : bits.toNat = byte.toNat >>> row) :
    decide (bits &&& 1 = 1) = byte.toNat.testBit row ∧
      (bits >>> 1).toNat = byte.toNat >>> (row + 1) := by
  constructor
  · have hlowest : bits &&& 1 = 1 ↔ bits.toNat % 2 = 1 := by
      rw [← UInt8.toNat_inj, UInt8.toNat_and]
      exact Nat.and_one_is_mod _ ▸ Iff.rfl
    rw [decide_eq_decide.2 hlowest, ← Nat.testBit_zero, h, Nat.testBit_shiftRight, Nat.add_zero]
  · rw [UInt8.toNat_shiftRight, h, Nat.shiftRight_add]
    rfl

/-! ## The loops -/

theorem touch_run {place : Nat} (h : place < walk.luma.size) (change : UInt8 → UInt8) :
    (touch place change).run walk =
      .ok () { luma := walk.luma.modify place change, touched := walk.touched ++ [place] } := by
  rw [touch, EStateM.run_bind, EStateM.run_get]
  dsimp only
  rw [if_pos h]
  rfl

/-- A loop whose turns succeed on a brightness of a size, which they leave as it is, adds up to a
    fold. -/
theorem loop_run {n size : Nat} {body : Nat → InPlace Unit} {turn : Nat → Array UInt8 → Array UInt8}
    {come : Nat → List Nat} (hsize : ∀ i luma, (turn i luma).size = luma.size)
    (hbody : ∀ i < n, ∀ walk : Walk, walk.luma.size = size → (body i).run walk =
      .ok () { luma := turn i walk.luma, touched := walk.touched ++ come i })
    (hwalk : walk.luma.size = size) :
    (forM (List.range n) body).run walk = .ok ()
      { luma := Nat.fold n (fun i _ luma => turn i luma) walk.luma
        touched := walk.touched ++ (List.range n).flatMap come } := by
  induction n with
  | zero =>
    rw [List.range_zero, List.flatMap_nil, List.append_nil]
    rfl
  | succ n ih =>
    -- The last turn finds a brightness of the size that it needs.
    have hluma : (Nat.fold n (fun i _ luma => turn i luma) walk.luma).size = size :=
      (Afterglow.size_fold fun i _ luma => hsize i luma).trans hwalk
    rw [List.range_succ, List.forM_append, EStateM.run_bind,
      ih fun i hi => hbody i (Nat.lt_succ_of_lt hi)]
    dsimp only
    rw [List.forM_cons, List.forM_nil, EStateM.run_bind, hbody n (Nat.lt_succ_self n) _ hluma,
      List.flatMap_append, List.flatMap_singleton, Nat.fold_succ, List.append_assoc]
    rfl

/-- After some rows the bits that are left are those of the rows below, so that the lowest of them
    is that of the next row. -/
theorem rows_run {page x size : Nat} (byte : UInt8) (count : Nat)
    (hplace : ∀ row < count, (page * 8 + row) * width + x < size) (hwalk : walk.luma.size = size) :
    ∃ bits : UInt8, bits.toNat = byte.toNat >>> count ∧
      (rows width decay increase page x byte count).run walk = .ok bits
        { luma := Nat.fold count (fun row _ luma => luma.modify ((page * 8 + row) * width + x)
            (Afterglow.fade decay increase (byte.toNat.testBit row))) walk.luma
          touched := walk.touched ++
            (List.range count).map fun row => (page * 8 + row) * width + x } := by
  induction count with
  | zero =>
    refine ⟨byte, rfl, ?_⟩
    rw [List.range_zero, List.map_nil, List.append_nil]
    rfl
  | succ count ih =>
    obtain ⟨bits, hbits, hrun⟩ := ih fun row hrow => hplace row (Nat.lt_succ_of_lt hrow)
    obtain ⟨hlit, hnext⟩ := lowest_shifted hbits
    refine ⟨bits >>> 1, hnext, ?_⟩
    have hluma : (Nat.fold count (fun row _ luma => luma.modify ((page * 8 + row) * width + x)
        (Afterglow.fade decay increase (byte.toNat.testBit row))) walk.luma).size = size :=
      (Afterglow.size_fold fun _ _ _ => Array.size_modify).trans hwalk
    rw [rows] at hrun ⊢
    rw [List.range_succ, List.foldlM_append, EStateM.run_bind, hrun]
    dsimp only
    rw [List.foldlM_cons, EStateM.run_bind, row, EStateM.run_bind,
      touch_run (hluma ▸ hplace count (Nat.lt_succ_self count)), hlit, refresh_eq_fade,
      List.map_append, List.map_singleton, Nat.fold_succ, List.append_assoc]
    rfl

theorem column_run {page x size : Nat} {byte : UInt8}
    (hplace : ∀ row < 8, (page * 8 + row) * width + x < size) (hwalk : walk.luma.size = size) :
    (column width decay increase page x byte).run walk = .ok ()
      { luma := Afterglow.sampleColumn width decay increase page x byte walk.luma
        touched := walk.touched ++ columnPlaces width page x } := by
  obtain ⟨bits, -, hrun⟩ := rows_run byte 8 hplace hwalk
  rw [column, EStateM.run_bind, hrun]
  rfl

theorem page_run {page size : Nat} (hbyte : ∀ x < width, page * width + x < grid.size)
    (hplace : ∀ x < width, ∀ row < 8, (page * 8 + row) * width + x < size)
    (hwalk : walk.luma.size = size) :
    (Walk.page width decay increase grid page).run walk = .ok ()
      { luma := Afterglow.samplePage width decay increase grid page walk.luma
        touched := walk.touched ++ pagePlaces width page } := by
  refine loop_run (fun x luma => Afterglow.size_fold fun _ _ _ => Array.size_modify)
    (fun x hx walk hwalk => ?_) hwalk
  have hread : levelAt grid (page * width + x) = .ok (grid.getD (page * width + x) 0) := by
    rw [levelAt, Array.getD_eq_getD_getElem?, Array.getElem?_eq_getElem (hbyte x hx)]
    rfl
  rw [hread]
  exact column_run (hplace x hx) hwalk

theorem pages_run {size : Nat} (hbyte : ∀ page < pages, ∀ x < width, page * width + x < grid.size)
    (hplace : ∀ page < pages, ∀ x < width, ∀ row < 8, (page * 8 + row) * width + x < size)
    (hwalk : walk.luma.size = size) :
    (forM (List.range pages) (Walk.page width decay increase grid)).run walk = .ok ()
      { luma := Afterglow.samplePages width decay increase grid pages walk.luma
        touched := walk.touched ++ places width pages } :=
  loop_run (fun _ _ => Afterglow.size_fold fun _ _ _ => Afterglow.size_fold fun _ _ _ =>
    Array.size_modify) (fun page hpage _ => page_run (hbyte page hpage) (hplace page hpage)) hwalk

/-! ## The places -/

theorem mem_columnPlaces {page place : Nat} :
    place ∈ columnPlaces width page x ↔ ∃ row < 8, (page * 8 + row) * width + x = place := by
  simp only [columnPlaces, List.mem_map, List.mem_range]

theorem mem_pagePlaces {page place : Nat} :
    place ∈ pagePlaces width page ↔
      ∃ x < width, ∃ row < 8, (page * 8 + row) * width + x = place := by
  simp only [pagePlaces, List.mem_flatMap, List.mem_range, mem_columnPlaces]

theorem mem_places {place : Nat} :
    place ∈ places width pages ↔
      ∃ page < pages, ∃ x < width, ∃ row < 8, (page * 8 + row) * width + x = place := by
  simp only [places, List.mem_flatMap, List.mem_range, mem_pagePlaces]

/-- No place is come to twice: each is that of one row of one byte of one page. -/
theorem nodup_places (width pages : Nat) : (places width pages).Nodup := by
  refine List.nodup_flatMap.2 ⟨fun page _ => List.nodup_flatMap.2 ⟨fun x hx => ?_, ?_⟩, ?_⟩
  · -- Two rows of a byte lie in different rows of the panel.
    refine List.nodup_range.map_on fun row _ row' _ h => ?_
    have := (place_inj (List.mem_range.1 hx) (List.mem_range.1 hx) h).1
    omega
  · -- Two bytes of a page lie in different columns.
    refine List.nodup_range.pairwise_of_forall_ne fun x hx x' hx' hne => ?_
    intro place h h'
    obtain ⟨row, -, rfl⟩ := mem_columnPlaces.1 h
    obtain ⟨row', -, h'⟩ := mem_columnPlaces.1 h'
    exact hne (place_inj (List.mem_range.1 hx') (List.mem_range.1 hx) h').2.symm
  · -- Two pages have no row in common.
    refine List.nodup_range.pairwise_of_forall_ne fun page _ page' _ hne => ?_
    intro place h h'
    obtain ⟨x, hx, row, hrow, rfl⟩ := mem_pagePlaces.1 h
    obtain ⟨x', hx', row', hrow', h'⟩ := mem_pagePlaces.1 h'
    have := (place_inj hx' hx h').1
    omega

/-- The places of the whole pages are come to once, those of the rows below them never. -/
theorem count_places (hx : x < width) :
    (places width pages).count (y * width + x) = if y < 8 * pages then 1 else 0 := by
  split
  · next h =>
    refine List.count_eq_one_of_mem (nodup_places width pages) (mem_places.2 ?_)
    refine ⟨y / 8, by omega, x, hx, y % 8, Nat.mod_lt y (by decide), ?_⟩
    rw [Nat.div_add_mod']
  · next h =>
    refine List.count_eq_zero_of_not_mem fun hmem => ?_
    obtain ⟨page, hpage, x', hx', row, hrow, hplace⟩ := mem_places.1 hmem
    have := (place_inj hx' hx hplace).1
    omega

end Walk

namespace Afterglow

variable {glow : Afterglow} {grid : Array UInt8} {decay increase : UInt8} {x y page : Nat}

/-! ## The panel -/

/-- A picture memory with a byte for each eight pixels has as many pages as fit into the panel. -/
theorem pages_eq (hsize : grid.size = glow.width * glow.height / 8) (hx : x < glow.width) :
    grid.size / glow.width = glow.height / 8 := by
  rw [hsize, div_width glow.height (Nat.zero_lt_of_lt hx)]

/-- The whole pages are all in the picture memory. -/
theorem byte_lt {width : Nat} (hx : x < width) (hpage : page < grid.size / width) :
    page * width + x < grid.size := by
  have hend : (page + 1) * width ≤ grid.size / width * width := Nat.mul_le_mul_right _ hpage
  have hle := Nat.div_mul_le_self grid.size width
  rw [Nat.succ_mul] at hend
  omega

/-- The places of the whole pages are all on the panel. -/
theorem row_lt (hsize : grid.size = glow.width * glow.height / 8) (hx : x < glow.width)
    (hpage : page < grid.size / glow.width) {row : Nat} (hrow : row < 8) :
    (page * 8 + row) * glow.width + x < glow.luma.size := by
  rw [pages_eq hsize hx] at hpage
  exact glow.place_lt hx (by omega)

/-- Over a picture memory of the right length a walk makes no fault. It comes to the brightness that
    a sample makes, and to the places of the whole pages. -/
theorem walk_of_size (hsize : grid.size = glow.width * glow.height / 8) :
    (glow.walk grid decay increase).run { luma := glow.luma } = .ok ()
      { luma := samplePages glow.width decay increase grid (grid.size / glow.width) glow.luma
        touched := Walk.places glow.width (grid.size / glow.width) } := by
  rw [walk, if_neg (not_not_intro hsize)]
  split
  · next hwidth =>
    rw [hwidth, Nat.div_zero]
    rfl
  · exact Walk.pages_run (fun page hpage x hx => byte_lt hx hpage)
      (fun page hpage x hx row hrow => row_lt hsize hx hpage hrow) rfl

/-- A pixel of the whole pages is dimmed, to 0 at least, and what is left of it is then brightened,
    to 255 at most, if its bit is set. -/
theorem pixel_of_lt (hsize : grid.size = glow.width * glow.height / 8) (hx : x < glow.width)
    (hy : y < 8 * (glow.height / 8)) {old new : UInt8}
    (hold : glow.luma[y * glow.width + x]? = some old)
    (hnew : (samplePages glow.width decay increase grid (grid.size / glow.width)
      glow.luma)[y * glow.width + x]? = some new) :
    ∃ byte, grid[y / 8 * glow.width + x]? = some byte ∧
      (new.toNat : Int) = min 255 (max 0 ((old.toNat : Int) - decay.toNat) +
        if byte.toNat.testBit (y % 8) then (increase.toNat : Int) else 0) := by
  have hpage : y / 8 < grid.size / glow.width := by
    rw [pages_eq hsize hx]
    omega
  have hbyte := Array.getElem?_eq_getElem (byte_lt hx hpage)
  refine ⟨_, hbyte, ?_⟩
  rw [getElem?_samplePages hx, if_pos hpage, hold, Option.map_some, Option.some.injEq, Pages.lit,
    Array.getD_eq_getD_getElem?, hbyte, Option.getD_some] at hnew
  rw [← hnew, toNat_fade]
  split
  · omega
  · omega

/-- A pixel of the rows below the whole pages stays as it is. -/
theorem pixel_of_le (hsize : grid.size = glow.width * glow.height / 8) (hx : x < glow.width)
    (hy : 8 * (glow.height / 8) ≤ y) :
    (samplePages glow.width decay increase grid (grid.size / glow.width)
      glow.luma)[y * glow.width + x]? = glow.luma[y * glow.width + x]? := by
  rw [getElem?_samplePages hx, if_neg]
  rw [pages_eq hsize hx]
  omega

/-- A picture memory of another length is refused before anything is changed. -/
theorem walk_of_size_ne (hsize : grid.size ≠ glow.width * glow.height / 8) (walk : Walk) :
    (glow.walk grid decay increase).run walk = .error .gridLength walk := by
  rw [Afterglow.walk, if_pos hsize]
  rfl

/-- A sample, pixel by pixel, for a panel of any size. Over a picture memory that has a byte for
    each eight pixels a walk makes no fault: no place that it reads or changes is out of range. It
    comes to the brightness of the sample, and the extent stays the same. Every pixel of the whole
    pages is changed once, as its own bit says: it is dimmed, to 0 at least, and what is left of it
    is then brightened, to 255 at most. The pixels of the rows below are not come to. Over any other
    picture memory both fail, and the walk leaves the brightness as it was. -/
theorem sample_pixelwise (glow : Afterglow) (grid : Array UInt8) (decay increase : UInt8) :
    (grid.size = glow.width * glow.height / 8 → ∃ next touched,
      glow.sample grid decay increase = .ok next ∧
      (glow.walk grid decay increase).run { luma := glow.luma } =
        .ok () { luma := next.luma, touched } ∧
      next.width = glow.width ∧ next.height = glow.height ∧ next.luma.size = glow.luma.size ∧
      (∀ place ∈ touched, place < glow.luma.size) ∧
      ∀ x < glow.width, ∀ y < glow.height, ∃ old new,
        glow.luma[y * glow.width + x]? = some old ∧ next.luma[y * glow.width + x]? = some new ∧
        touched.count (y * glow.width + x) = (if y < 8 * (glow.height / 8) then 1 else 0) ∧
        (y < 8 * (glow.height / 8) → ∃ byte, grid[y / 8 * glow.width + x]? = some byte ∧
          (new.toNat : Int) = min 255 (max 0 ((old.toNat : Int) - decay.toNat) +
            if byte.toNat.testBit (y % 8) then (increase.toNat : Int) else 0)) ∧
        (8 * (glow.height / 8) ≤ y → new = old)) ∧
    (grid.size ≠ glow.width * glow.height / 8 →
      glow.sample grid decay increase = .error .gridLength ∧
      (glow.walk grid decay increase).run { luma := glow.luma } =
        .error .gridLength { luma := glow.luma }) := by
  constructor
  · intro hsize
    refine ⟨_, _, if_pos hsize, walk_of_size hsize, rfl, rfl, size_samplePages .., ?_, ?_⟩
    · intro place hplace
      obtain ⟨page, hpage, x, hx, row, hrow, rfl⟩ := Walk.mem_places.1 hplace
      exact row_lt hsize hx hpage hrow
    · intro x hx y hy
      have hold := Array.getElem?_eq_getElem (glow.place_lt hx hy)
      have hkept : y * glow.width + x < (samplePages glow.width decay increase grid
          (grid.size / glow.width) glow.luma).size :=
        Nat.lt_of_lt_of_eq (glow.place_lt hx hy) (size_samplePages ..).symm
      have hnew := Array.getElem?_eq_getElem hkept
      refine ⟨_, _, hold, hnew, ?_, fun hrow => pixel_of_lt hsize hx hrow hold hnew, fun hrow => ?_⟩
      · rw [Walk.count_places hx, pages_eq hsize hx]
      · rw [pixel_of_le hsize hx hrow, hold] at hnew
        exact (Option.some.inj hnew).symm
  · intro hsize
    exact ⟨if_neg hsize, walk_of_size_ne hsize _⟩

/-- A panel of one column and twelve rows has one whole page. Its first pixel is lit; the ninth is
    not come to. -/
theorem sample_pixelwise_twelve :
    ∃ next touched, (dark 1 12).sample #[1] 85 170 = .ok next ∧
      ((dark 1 12).walk #[1] 85 170).run { luma := (dark 1 12).luma } =
        .ok () { luma := next.luma, touched } ∧
      touched.count 0 = 1 ∧ (∃ new, next.luma[0]? = some new ∧ (new.toNat : Int) = 170) ∧
      touched.count 8 = 0 ∧ next.luma[8]? = some 0 := by
  obtain ⟨next, touched, hnext, hwalk, -, -, -, -, hpixel⟩ :=
    (sample_pixelwise (dark 1 12) #[1] 85 170).1 rfl
  obtain ⟨old, new, hold, hnew, hcount, hbit, -⟩ := hpixel 0 (by decide) 0 (by decide)
  obtain ⟨byte, hbyte, hlevel⟩ := hbit (by decide)
  obtain ⟨old', new', hold', hnew', hcount', -, hsame⟩ := hpixel 0 (by decide) 8 (by decide)
  cases (hold : some 0 = some old)
  cases (hbyte : some 1 = some byte)
  cases (hold' : some 0 = some old')
  cases hsame (by decide)
  exact ⟨next, touched, hnext, hwalk, hcount, ⟨new, hnew, hlevel⟩, hcount', hnew'⟩

end Afterglow

end Handheld
