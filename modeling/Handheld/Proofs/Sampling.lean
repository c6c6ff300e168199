import Handheld.Afterglow
import Handheld.Board
import Mathlib.Tactic.Common

/-!
# What a sample does to a pixel

A sample walks the picture memory page by page, byte by byte and bit by bit. Seen from one pixel,
all that happens is that it fades once, as its own bit says (`Afterglow.getElem?_sample`): a place
of the grid belongs to one row of one byte of one page, so that each of the three loops comes to it
once.

The brightness of a pixel is thus a fold over the samples of its own bit (`brightness`), whatever
the other pixels do. `Afterglow.Shows` says so of a whole afterglow; a sample preserves it.
-/

namespace Handheld

/-! ## The places of a grid -/

/-- Row by row there is a place for each column and row. -/
theorem place_lt_mul {width height x y : Nat} (hx : x < width) (hy : y < height) :
    y * width + x < width * height := by
  have hrow : (y + 1) * width ≤ height * width := Nat.mul_le_mul_right _ hy
  rw [Nat.succ_mul] at hrow
  rw [Nat.mul_comm width]
  omega

theorem place_div {width x : Nat} (hx : x < width) (y : Nat) : (y * width + x) / width = y := by
  rw [Nat.mul_comm, Nat.mul_add_div (Nat.zero_lt_of_lt hx), Nat.div_eq_of_lt hx, Nat.add_zero]

/-- Places of a grid in different rows or columns are different. -/
theorem place_inj {width x x' y y' : Nat} (hx : x < width) (hx' : x' < width)
    (h : y * width + x = y' * width + x') : y = y' ∧ x = x' := by
  obtain rfl : y = y' :=
    (place_div hx y).symm.trans ((congrArg (· / width) h).trans (place_div hx' y'))
  exact ⟨rfl, Nat.add_left_cancel h⟩

/-! ## Loops that come to a place once -/

section Fold

variable {α : Type} {n k : Nat} {f : (i : Nat) → i < n → Array α → Array α} {xs : Array α}

/-- An entry that only the turn `m` of a loop changes is changed by it once. -/
theorem getElem?_fold {g : α → α} (m : Nat)
    (hother : ∀ i hi ys, i ≠ m → (f i hi ys)[k]? = ys[k]?)
    (hself : ∀ hi ys, (f m hi ys)[k]? = ys[k]?.map g) :
    (Nat.fold n f xs)[k]? = if m < n then xs[k]?.map g else xs[k]? := by
  induction n with
  | zero => rfl
  | succ n ih =>
    have ih := ih (f := fun i hi => f i (Nat.lt_succ_of_lt hi)) (fun i hi => hother i _)
      (fun hi => hself _)
    rw [Nat.fold_succ]
    rcases eq_or_ne n m with rfl | hne
    · rw [hself, ih, if_neg (Nat.lt_irrefl n), if_pos (Nat.lt_succ_self n)]
    · have hlt : m < n + 1 ↔ m < n := by omega
      rw [hother n _ _ hne, ih]
      simp only [hlt]

/-- An entry that no turn of a loop changes is as it was. -/
theorem getElem?_fold_of_forall (h : ∀ i hi ys, (f i hi ys)[k]? = ys[k]?) :
    (Nat.fold n f xs)[k]? = xs[k]? := by
  -- The turn that would change it never comes.
  rw [getElem?_fold (g := id) n (fun i hi ys _ => h i hi ys) fun hi => absurd hi (Nat.lt_irrefl n),
    if_neg (Nat.lt_irrefl n)]

end Fold

namespace Afterglow

variable {width x y page pages : Nat} {decay increase : UInt8} {grid luma : Array UInt8}
  {glow next : Afterglow}

/-! ## The three loops -/

/-- A byte holds the pixel in column `x` and row `y` if it is the byte of column `x` in the page of
    row `y`. -/
theorem getElem?_sampleColumn (hx : x < width) {column : Nat} (hcolumn : column < width)
    (byte : UInt8) :
    (sampleColumn width decay increase page column byte luma)[y * width + x]? =
      if page = y / 8 ∧ column = x then
        luma[y * width + x]?.map (fade decay increase (byte.toNat.testBit (y % 8)))
      else luma[y * width + x]? := by
  rw [sampleColumn]
  split
  · next h =>
    obtain ⟨rfl, rfl⟩ := h
    rw [getElem?_fold (g := fade decay increase (byte.toNat.testBit (y % 8))) (y % 8),
      if_pos (Nat.mod_lt y (by decide))]
    · intro row _ ys hrow
      rw [Array.getElem?_modify, if_neg]
      intro h
      have := (place_inj hcolumn hx h).1
      omega
    · intro _ ys
      rw [Array.getElem?_modify, Nat.div_add_mod', if_pos rfl]
  · next h =>
    refine getElem?_fold_of_forall fun row hrow ys => ?_
    rw [Array.getElem?_modify, if_neg]
    intro hplace
    obtain ⟨hrow, rfl⟩ := place_inj hcolumn hx hplace
    exact h ⟨by omega, rfl⟩

theorem getElem?_samplePage (hx : x < width) :
    (samplePage width decay increase grid page luma)[y * width + x]? =
      if page = y / 8 then
        luma[y * width + x]?.map (fade decay increase (Pages.lit width grid x y))
      else luma[y * width + x]? := by
  rw [samplePage]
  split
  · next h =>
    subst h
    rw [getElem?_fold (g := fade decay increase (Pages.lit width grid x y)) x, if_pos hx]
    · intro column hcolumn ys hne
      rw [getElem?_sampleColumn hx hcolumn, if_neg fun h => hne h.2]
    · intro _ ys
      rw [getElem?_sampleColumn hx hx, if_pos ⟨rfl, rfl⟩, Pages.lit]
  · next h =>
    refine getElem?_fold_of_forall fun column hcolumn ys => ?_
    rw [getElem?_sampleColumn hx hcolumn, if_neg fun hpage => h hpage.1]

theorem getElem?_samplePages (hx : x < width) :
    (samplePages width decay increase grid pages luma)[y * width + x]? =
      if y / 8 < pages then
        luma[y * width + x]?.map (fade decay increase (Pages.lit width grid x y))
      else luma[y * width + x]? := by
  rw [samplePages]
  refine getElem?_fold (y / 8) (fun page _ ys hne => ?_) fun _ ys => ?_
  · rw [getElem?_samplePage hx, if_neg hne]
  · rw [getElem?_samplePage hx, if_pos rfl]

/-! ## A sample -/

/-- A sample leaves the extent of the afterglow as it is. -/
theorem sample_extent (h : glow.sample grid decay increase = .ok next) :
    next.width = glow.width ∧ next.height = glow.height := by
  rw [sample] at h
  split at h
  · cases h
    exact ⟨rfl, rfl⟩
  · cases h

/-- At a sample every pixel of a panel of whole pages fades as its bit says. -/
theorem getElem?_sample (hpages : 8 ∣ glow.height)
    (h : glow.sample grid decay increase = .ok next) (hx : x < glow.width) (hy : y < glow.height) :
    next.luma[y * glow.width + x]? =
      glow.luma[y * glow.width + x]?.map
        (fade decay increase (Pages.lit glow.width grid x y)) := by
  rw [sample] at h
  split at h
  · next hsize =>
    cases h
    have hpage : y / 8 < grid.size / glow.width := by
      rw [hsize, div_width glow.height (Nat.zero_lt_of_lt hx)]
      omega
    rw [getElem?_samplePages hx, if_pos hpage]
  · cases h

/-! ## Many samples -/

theorem toNat_fade (lit : Bool) (level : UInt8) :
    (fade decay increase lit level).toNat =
      min 255 (level.toNat - decay.toNat + if lit then increase.toNat else 0) := by
  rw [fade, UInt8.toNat_ofNat_of_lt']
  exact Nat.lt_of_le_of_lt (Nat.min_le_left ..) (by decide)

end Afterglow

/-- The brightness of the pixel in column `x` and row `y` of a panel, dark at first, after samples
    of its picture memory. -/
def brightness (width : Nat) (decay increase : UInt8) (grids : List (Array UInt8)) (x y : Nat) :
    Nat :=
  grids.foldl (fun level grid =>
    min 255 (level - decay.toNat + if Pages.lit width grid x y then increase.toNat else 0)) 0

namespace Afterglow

variable {decay increase : UInt8} {grid : Array UInt8} {glow next : Afterglow}

/-- Every pixel is as bright as samples of `grids` made it. -/
def Shows (glow : Afterglow) (decay increase : UInt8) (grids : List (Array UInt8)) : Prop :=
  ∀ x < glow.width, ∀ y < glow.height,
    glow.luma[y * glow.width + x]?.map UInt8.toNat =
      some (brightness glow.width decay increase grids x y)

/-- A place of the grid for each pixel. -/
theorem place_lt (glow : Afterglow) {x y : Nat} (hx : x < glow.width) (hy : y < glow.height) :
    y * glow.width + x < glow.luma.size := by
  rw [glow.size_luma]
  exact place_lt_mul hx hy

theorem shows_dark (width height : Nat) (decay increase : UInt8) :
    (dark width height).Shows decay increase [] := by
  intro x hx y hy
  rw [Array.getElem?_eq_getElem (place_lt _ hx hy)]
  simp [dark, brightness]

/-- A sample adds the present picture to those that the afterglow shows. -/
theorem Shows.sample {grids : List (Array UInt8)} (hpages : 8 ∣ glow.height)
    (hglow : glow.Shows decay increase grids) (h : glow.sample grid decay increase = .ok next) :
    next.Shows decay increase (grids ++ [grid]) := by
  obtain ⟨hwidth, hheight⟩ := sample_extent h
  intro x hx y hy
  rw [hwidth] at hx ⊢
  rw [hheight] at hy
  have hold := hglow x hx y hy
  rw [getElem?_sample hpages h hx hy]
  obtain ⟨level, hlevel, hbright⟩ := Option.map_eq_some_iff.1 hold
  rw [hlevel, Option.map_some, Option.map_some, toNat_fade, hbright, brightness, brightness,
    List.foldl_append, List.foldl_cons, List.foldl_nil]

end Afterglow

end Handheld
