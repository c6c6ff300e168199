import Handheld.Proofs.Sampling
import Mathlib.Algebra.Order.Floor.Div
import Mathlib.Data.List.Basic
import Mathlib.Logic.Function.Iterate

/-!
# Ramps of the afterglow

What becomes of a pixel that stays lit, or stays dark, over many samples? Each sample takes `decay`
from its brightness, down to 0, and adds `increase` if it is lit, up to 255. Between the ends of the
range the brightness is on a straight line, and of the two ends it can meet at most one:

* a dark pixel goes down, and stays at 0 (`toNat_iterate_dark`);
* a lit pixel with an increase of at least the decay goes up, and stays at 255. Only its first
  sample can come to the lower end, and then as if it had been as bright as the decay
  (`toNat_iterate_rising`);
* a lit pixel with an increase below the decay goes down, and stays at the increase, since this is
  what a sample makes of the lower end (`toNat_iterate_falling`).

`ramps` says so of every pixel of a panel, however the other pixels are lit, and how many samples it
takes to come to the end of each ramp: the distance divided by the slope, rounded up.
-/

namespace Handheld

namespace Afterglow

variable {decay increase level : UInt8} {glow next : Afterglow} {grid : Array UInt8}
  {grids : List (Array UInt8)} {lit : Bool} {width x y n : Nat}

/-- Sample several picture memories, one after the other. -/
def sampleAll (glow : Afterglow) (decay increase : UInt8) (grids : List (Array UInt8)) :
    Except Fault Afterglow :=
  grids.foldlM (fun glow grid => glow.sample grid decay increase) glow

/-- A pixel is lit in all of the picture memories, or dark in all of them. -/
def Stays (lit : Bool) (width : Nat) (grids : List (Array UInt8)) (x y : Nat) : Prop :=
  ∀ grid ∈ grids, Pages.lit width grid x y = lit

instance : Decidable (Stays lit width grids x y) :=
  inferInstanceAs (Decidable (∀ grid ∈ grids, Pages.lit width grid x y = lit))

/-! ## One pixel -/

/-- A dark pixel loses `decay` at each sample, down to 0. -/
theorem toNat_iterate_dark (n : Nat) :
    ((fade decay increase false)^[n] level).toNat = level.toNat - n * decay.toNat := by
  induction n with
  | zero => rw [Function.iterate_zero_apply, Nat.zero_mul, Nat.sub_zero]
  | succ n ih =>
    have hlevel := level.toNat_lt
    rw [Function.iterate_succ_apply', toNat_fade, ih, if_neg Bool.false_ne_true, Nat.succ_mul]
    omega

/-- A lit pixel gains `increase - decay` at each sample, up to 255, from `decay` on at least. -/
theorem toNat_iterate_rising (h : decay ≤ increase) (n : Nat) :
    ((fade decay increase true)^[n + 1] level).toNat =
      min 255 (max level.toNat decay.toNat + (n + 1) * (increase.toNat - decay.toNat)) := by
  rw [UInt8.le_iff_toNat_le] at h
  have hdecay := decay.toNat_lt
  induction n with
  | zero =>
    rw [Function.iterate_succ_apply', Function.iterate_zero_apply, toNat_fade, if_pos rfl]
    omega
  | succ n ih =>
    -- After a sample the pixel is at least as bright as `increase`, so that nothing is cut off.
    rw [Function.iterate_succ_apply', toNat_fade, ih, if_pos rfl, Nat.succ_mul (n + 1),
      Nat.succ_mul]
    omega

/-- A lit pixel loses `decay - increase` at each sample, down to `increase`. -/
theorem toNat_iterate_falling (h : increase < decay) (n : Nat) :
    ((fade decay increase true)^[n + 1] level).toNat =
      max increase.toNat (level.toNat - (n + 1) * (decay.toNat - increase.toNat)) := by
  rw [UInt8.lt_iff_toNat_lt] at h
  have hincrease := increase.toNat_lt
  have hlevel := level.toNat_lt
  induction n with
  | zero =>
    rw [Function.iterate_succ_apply', Function.iterate_zero_apply, toNat_fade, if_pos rfl]
    omega
  | succ n ih =>
    rw [Function.iterate_succ_apply', toNat_fade, ih, if_pos rfl, Nat.succ_mul (n + 1),
      Nat.succ_mul]
    omega

/-! ## The ends of the ramps -/

/-- A distance is covered by as many steps as there are in it, rounded up. -/
theorem ceilDiv_le_iff {distance slope : Nat} (hslope : 0 < slope) :
    distance ⌈/⌉ slope ≤ n ↔ distance ≤ n * slope := by
  rw [ceilDiv_le_iff_le_mul hslope, Nat.mul_comm]

theorem iterate_dark_eq_iff (h : 0 < decay) :
    (fade decay increase false)^[n] level = 0 ↔ level.toNat ⌈/⌉ decay.toNat ≤ n := by
  rw [ceilDiv_le_iff (UInt8.lt_iff_toNat_lt.1 h), ← UInt8.toNat_inj, toNat_iterate_dark]
  exact Nat.sub_eq_zero_iff_le

/-- Whatever it was like, a pixel has gone dark after as many samples as the whole range takes. -/
theorem iterate_dark_eq (h : 0 < decay) (hn : 255 ⌈/⌉ decay.toNat ≤ n) :
    (fade decay increase false)^[n] level = 0 := by
  have hlevel := level.toNat_lt
  have hslope := UInt8.lt_iff_toNat_lt.1 h
  rw [ceilDiv_le_iff hslope] at hn
  rw [iterate_dark_eq_iff h, ceilDiv_le_iff hslope]
  omega

theorem iterate_rising_eq_iff (h : decay < increase) :
    (fade decay increase true)^[n] level = 255 ↔
      (255 - max level.toNat decay.toNat) ⌈/⌉ (increase.toNat - decay.toNat) ≤ n := by
  have hlt := UInt8.lt_iff_toNat_lt.1 h
  have hlevel := level.toNat_lt
  have hincrease := increase.toNat_lt
  rw [ceilDiv_le_iff (Nat.sub_pos_of_lt hlt), ← UInt8.toNat_inj]
  cases n with
  | zero =>
    -- No sample is needed by a pixel that is at 255 already; the decay is less than that.
    rw [Function.iterate_zero_apply, Nat.zero_mul]
    change level.toNat = 255 ↔ _
    omega
  | succ n =>
    rw [toNat_iterate_rising (UInt8.le_of_lt h)]
    change _ = 255 ↔ _
    omega

theorem iterate_falling_eq_iff (h : increase < decay) :
    (fade decay increase true)^[n + 1] level = increase ↔
      (level.toNat - increase.toNat) ⌈/⌉ (decay.toNat - increase.toNat) ≤ n + 1 := by
  have hslope : 0 < decay.toNat - increase.toNat := Nat.sub_pos_of_lt (UInt8.lt_iff_toNat_lt.1 h)
  rw [ceilDiv_le_iff hslope, ← UInt8.toNat_inj, toNat_iterate_falling h]
  omega

/-! ## The whole panel -/

theorem get_eq_ok_iff : glow.get x y = .ok level ↔ glow.luma[y * glow.width + x]? = some level := by
  rw [get, levelAt]
  split
  · next old hold => rw [hold, Except.ok.injEq, Option.some.injEq]
  · next hnone => rw [hnone]; exact iff_of_false nofun nofun

/-- Samples of picture memories of the right length succeed, and every pixel of a panel of whole
    pages fades at each of them as its bit says. -/
theorem sampleAll_of_size (hpages : 8 ∣ glow.height)
    (hgrids : ∀ grid ∈ grids, grid.size = glow.width * glow.height / 8) :
    ∃ next, glow.sampleAll decay increase grids = .ok next ∧
      next.width = glow.width ∧ next.height = glow.height ∧
      ∀ x < glow.width, ∀ y < glow.height,
        next.luma[y * glow.width + x]? = glow.luma[y * glow.width + x]?.map fun level =>
          grids.foldl (fun level grid =>
            fade decay increase (Pages.lit glow.width grid x y) level) level := by
  induction grids generalizing glow with
  | nil => exact ⟨glow, rfl, rfl, rfl, fun x _ y _ => Option.map_id'.symm⟩
  | cons grid grids ih =>
    obtain ⟨hgrid, hgrids⟩ := List.forall_mem_cons.1 hgrids
    obtain ⟨first, hfirst⟩ : ∃ first, glow.sample grid decay increase = .ok first :=
      ⟨_, if_pos hgrid⟩
    obtain ⟨hwidth, hheight⟩ := sample_extent hfirst
    rw [← hheight] at hpages
    rw [← hwidth, ← hheight] at hgrids
    obtain ⟨next, hnext, hwidth', hheight', hpixel⟩ := ih hpages hgrids
    refine ⟨next, ?_, hwidth'.trans hwidth, hheight'.trans hheight, fun x hx y hy => ?_⟩
    · rw [sampleAll, List.foldlM_cons, hfirst]
      exact hnext
    · rw [hwidth, hheight] at hpixel
      rw [hpixel x hx y hy, getElem?_sample (hheight ▸ hpages) hfirst hx hy, Option.map_map]
      rfl

/-- A pixel that stays as it is fades the same way at each sample. -/
theorem foldl_fade_of_stays (h : Stays lit width grids x y) :
    grids.foldl (fun level grid => fade decay increase (Pages.lit width grid x y) level) level =
      (fade decay increase lit)^[grids.length] level := by
  rw [List.foldl_ext _ (fun level _ => fade decay increase lit level) level
    fun level grid hgrid => by rw [h grid hgrid]]
  exact List.foldl_const _ _ _

/-- Samples of picture memories of the right length succeed, and every pixel of a panel of whole
    pages that stays as it is fades the same way at each of them. -/
theorem sampleAll_get (hpages : 8 ∣ glow.height)
    (hgrids : ∀ grid ∈ grids, grid.size = glow.width * glow.height / 8) :
    ∃ next, glow.sampleAll decay increase grids = .ok next ∧
      next.width = glow.width ∧ next.height = glow.height ∧
      ∀ x < glow.width, ∀ y < glow.height, ∃ old new,
        glow.get x y = .ok old ∧ next.get x y = .ok new ∧
        ∀ lit, Stays lit glow.width grids x y →
          new = (fade decay increase lit)^[grids.length] old := by
  obtain ⟨next, hnext, hwidth, hheight, hpixel⟩ := sampleAll_of_size hpages hgrids
  refine ⟨next, hnext, hwidth, hheight, fun x hx y hy => ?_⟩
  have hold := Array.getElem?_eq_getElem (glow.place_lt hx hy)
  have hnew := hpixel x hx y hy
  rw [hold, Option.map_some] at hnew
  refine ⟨_, _, get_eq_ok_iff.2 hold, get_eq_ok_iff.2 (by rw [hwidth, hnew]), fun lit hstays => ?_⟩
  exact foldl_fade_of_stays hstays

/-- The ramps of a panel of whole pages, over any number of samples with the same decay and
    increase. The samples succeed, and the extent stays the same. A pixel that is dark in all of
    them goes down by `decay` each time, and is at 0 once it had as many samples as its brightness
    takes. A pixel that is lit in all of them either goes up by what `increase` is more than
    `decay`, from `decay` on at least, and is at 255 once it had as many samples as the rest of the
    range takes; or it goes down by what `increase` is less, and is at `increase` from then on. -/
theorem ramps (glow : Afterglow) (decay increase : UInt8) (grids : List (Array UInt8))
    (hpages : 8 ∣ glow.height)
    (hgrids : ∀ grid ∈ grids, grid.size = glow.width * glow.height / 8) :
    ∃ next, glow.sampleAll decay increase grids = .ok next ∧
      next.width = glow.width ∧ next.height = glow.height ∧
      ∀ x < glow.width, ∀ y < glow.height, ∃ old new,
        glow.get x y = .ok old ∧ next.get x y = .ok new ∧
        (Stays false glow.width grids x y →
          new.toNat = old.toNat - grids.length * decay.toNat ∧
          (0 < decay → (new = 0 ↔ old.toNat ⌈/⌉ decay.toNat ≤ grids.length) ∧
            (255 ⌈/⌉ decay.toNat ≤ grids.length → new = 0))) ∧
        (Stays true glow.width grids x y → decay ≤ increase → 1 ≤ grids.length →
          new.toNat = min 255 (max old.toNat decay.toNat +
            grids.length * (increase.toNat - decay.toNat))) ∧
        (Stays true glow.width grids x y → decay < increase →
          (new = 255 ↔
            (255 - max old.toNat decay.toNat) ⌈/⌉ (increase.toNat - decay.toNat) ≤
              grids.length)) ∧
        (Stays true glow.width grids x y → increase < decay → 1 ≤ grids.length →
          new.toNat = max increase.toNat
            (old.toNat - grids.length * (decay.toNat - increase.toNat)) ∧
          (new = increase ↔
            (old.toNat - increase.toNat) ⌈/⌉ (decay.toNat - increase.toNat) ≤ grids.length)) := by
  obtain ⟨next, hnext, hwidth, hheight, hpixel⟩ := sampleAll_get hpages hgrids
  refine ⟨next, hnext, hwidth, hheight, fun x hx y hy => ?_⟩
  obtain ⟨old, new, hold, hnew, hstays⟩ := hpixel x hx y hy
  refine ⟨old, new, hold, hnew, fun hdark => ?_, fun hlit hle hsome => ?_, fun hlit hlt => ?_,
    fun hlit hlt hsome => ?_⟩
  · rw [hstays false hdark]
    exact ⟨toNat_iterate_dark _, fun hpos => ⟨iterate_dark_eq_iff hpos, iterate_dark_eq hpos⟩⟩
  · obtain ⟨n, hn⟩ := Nat.exists_eq_add_of_le' hsome
    rw [hstays true hlit, hn]
    exact toNat_iterate_rising hle n
  · rw [hstays true hlit]
    exact iterate_rising_eq_iff hlt
  · obtain ⟨n, hn⟩ := Nat.exists_eq_add_of_le' hsome
    rw [hstays true hlit, hn]
    exact ⟨toNat_iterate_falling hlt n, iterate_falling_eq_iff hlt⟩

/-- Two samples of a byte with its lowest bit set: the pixel of that bit is as bright as can be, the
    one below it as dark. -/
theorem ramps_two : ∃ next, (dark 1 8).sampleAll 85 170 [#[1], #[1]] = .ok next ∧
    next.get 0 0 = .ok 255 ∧ next.get 0 1 = .ok 0 := by
  have hgrids : ∀ grid ∈ [#[(1 : UInt8)], #[1]], grid.size = 1 * 8 / 8 := by decide
  obtain ⟨next, hnext, -, -, hpixel⟩ := ramps (dark 1 8) 85 170 [#[1], #[1]] (by decide) hgrids
  obtain ⟨old, new, hold, hnew, -, -, hlit, -⟩ := hpixel 0 (by decide) 0 (by decide)
  obtain ⟨old', new', hold', hnew', hdark, -⟩ := hpixel 0 (by decide) 1 (by decide)
  cases (hold : Except.ok 0 = .ok old)
  cases (hold' : Except.ok 0 = .ok old')
  rw [(hlit (by decide) (by decide)).2 (by decide)] at hnew
  rw [((hdark (by decide)).2 (by decide)).1.2 (by decide)] at hnew'
  exact ⟨next, hnext, hnew, hnew'⟩

end Afterglow

end Handheld
