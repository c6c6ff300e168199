import Handheld.Afterglow
import Handheld.Board.Demo
import Mathlib.Tactic.Common

/-!
# Runs of the demo board

How a run of the demo board is cut into bursts does not show.

* `DemoBoard.runTo_runTo`: a run to one cycle and from there to a later one is the run to the later.
* `DemoBoard.runTo_preserves`: what the events of a run preserve, the run does.
* `DemoBoard.runBurst_add`: two bursts after one another are one burst. If the program finishes in
  the first, the second is empty (`DemoBoard.runBurst_of_isTerminal`).
* `DemoBoard.Reachable`: the states of a board that only runs, is driven, and is told when to
  finish. Its picture memory keeps its size.
-/

namespace Handheld

namespace Game

theorem size_setBits (grid : Array UInt8) (index : Nat) (bits : UInt8) (on : Bool) :
    (Pages.setBits grid index bits on).size = grid.size := Array.size_modify

/-- A rectangle is painted in place. -/
theorem size_fill (grid : Array UInt8) (x y w h : Nat) (on : Bool) :
    (fill grid x y w h on).size = grid.size := by
  rw [fill]
  refine Afterglow.size_fold fun page _ grid => ?_
  exact Afterglow.size_fold fun column _ grid => size_setBits ..

theorem size_strobe (game : Game) : game.strobe.vram.size = game.vram.size := by
  simp only [strobe, fillBlock, size_fill]

theorem size_frame (game : Game) (pressed : ButtonMap Bool) :
    (game.frame pressed).vram.size = width * height / 8 := by
  simp only [frame, render, fillBlock, size_fill, darkPages, Array.size_replicate]
  rfl

end Game

namespace DemoBoard

variable {board : DemoBoard} {stop a b : Nat}

/-! ## Running to a cycle -/

theorem runTo_of_le (h : board.nextEvent ≤ stop) :
    board.runTo stop = board.runEvent.runTo stop := by
  rw [runTo, if_pos h]

theorem runTo_of_lt (h : stop < board.nextEvent) :
    board.runTo stop = { board with cycle := stop } := by
  rw [runTo, if_neg (Nat.not_le_of_lt h)]

/-- What the events preserve, and the passing of time, a run preserves. -/
theorem runTo_preserves {p : DemoBoard → Prop} (hevent : ∀ board, p board → p board.runEvent)
    (hcycle : ∀ board cycle, p board → p { board with cycle }) (h : p board) (stop : Nat) :
    p (board.runTo stop) := by
  induction board using runTo.induct stop with
  | case1 board hle ih =>
    -- An event comes first.
    rw [runTo_of_le hle]
    exact ih (hevent board h)
  | case2 board hlt =>
    -- No event is left, and time passes up to the end.
    rw [runTo_of_lt (Nat.lt_of_not_le hlt)]
    exact hcycle board stop h

theorem cycle_runTo (board : DemoBoard) (stop : Nat) : (board.runTo stop).cycle = stop := by
  induction board using runTo.induct stop with
  | case1 board hle ih => rw [runTo_of_le hle, ih]
  | case2 board hlt => rw [runTo_of_lt (Nat.lt_of_not_le hlt)]

theorem haltAt_runTo (board : DemoBoard) (stop : Nat) : (board.runTo stop).haltAt = board.haltAt :=
  runTo_preserves (p := fun next => next.haltAt = board.haltAt) (fun _ h => h) (fun _ _ h => h) rfl
    stop

theorem frequency_runTo (board : DemoBoard) (stop : Nat) :
    (board.runTo stop).frequency = board.frequency :=
  runTo_preserves (p := fun next => next.frequency = board.frequency) (fun _ h => h)
    (fun _ _ h => h) rfl stop

/-- Where a run stops on its way does not show. -/
theorem runTo_runTo (board : DemoBoard) (h : a ≤ b) : (board.runTo a).runTo b = board.runTo b := by
  induction board using runTo.induct a with
  | case1 board hle ih => rw [runTo_of_le hle, ih, runTo_of_le (Nat.le_trans hle h)]
  | case2 board hlt =>
    rw [runTo_of_lt (Nat.lt_of_not_le hlt)]
    -- The cycle at which a run begins is overwritten by its first event, or by its end.
    rw [runTo, runTo.eq_1 board]
    rfl

/-! ## Bursts -/

theorem cycle_le_burstEnd (board : DemoBoard) (limit : Nat) :
    board.cycle ≤ board.burstEnd limit := by
  rw [burstEnd]
  cases board.haltAt with
  | none => exact Nat.le_add_right ..
  | some halt => simp only; omega

theorem burstEnd_le (board : DemoBoard) (limit : Nat) :
    board.burstEnd limit ≤ board.cycle + limit := by
  rw [burstEnd]
  cases board.haltAt with
  | none => exact Nat.le_refl _
  | some halt => exact Nat.min_le_left ..

theorem isTerminal_runBurst (board : DemoBoard) (limit : Nat) :
    (board.runBurst limit).1.state.isTerminal = board.haltAt.any (· ≤ board.burstEnd limit) := by
  simp only [runBurst]
  cases board.haltAt.any (· ≤ board.burstEnd limit) <;> rfl

/-- A burst in which the program does not finish runs its full length. -/
theorem burstEnd_of_not_isTerminal {limit : Nat}
    (h : (board.runBurst limit).1.state.isTerminal = false) :
    board.burstEnd limit = board.cycle + limit := by
  rw [isTerminal_runBurst] at h
  rw [burstEnd] at h ⊢
  cases hhalt : board.haltAt with
  | none => rfl
  | some halt =>
    rw [hhalt] at h
    simp only [Option.any_some, decide_eq_false_iff_not] at h ⊢
    omega

theorem burstEnd_add (board : DemoBoard) (a b : Nat) :
    board.burstEnd (a + b) = (board.runTo (board.burstEnd a)).burstEnd b := by
  unfold burstEnd
  rw [haltAt_runTo, cycle_runTo]
  cases board.haltAt with
  | none => exact (Nat.add_assoc ..).symm
  | some halt => simp only; omega

/-- Two bursts after one another are one burst. -/
theorem runBurst_add (board : DemoBoard) (a b : Nat) :
    board.runBurst (a + b) =
      let first := board.runBurst a
      let second := first.2.runBurst b
      ({ cycles := first.1.cycles + second.1.cycles, state := second.1.state }, second.2) := by
  have hle : board.burstEnd a ≤ (board.runTo (board.burstEnd a)).burstEnd b := by
    have h := cycle_le_burstEnd (board.runTo (board.burstEnd a)) b
    rwa [cycle_runTo] at h
  have hstart := cycle_le_burstEnd board a
  simp only [runBurst, burstEnd_add, haltAt_runTo, cycle_runTo, runTo_runTo _ hle, Prod.mk.injEq,
    Burst.mk.injEq, and_true]
  exact ⟨by omega, rfl⟩

/-- Once the program has finished the rest of a burst is empty. -/
theorem runBurst_of_isTerminal (h : (board.runBurst a).1.state.isTerminal = true) (b : Nat) :
    board.runBurst (a + b) = board.runBurst a := by
  -- The burst has ended where the program finished, and a longer one ends there as well.
  have hend : board.burstEnd (a + b) = board.burstEnd a := by
    rw [isTerminal_runBurst] at h
    unfold burstEnd at h ⊢
    cases hhalt : board.haltAt with
    | none =>
      rw [hhalt] at h
      cases h
    | some halt =>
      rw [hhalt] at h
      simp only [Option.any_some, decide_eq_true_eq] at h ⊢
      omega
  simp only [runBurst, hend]

/-! ## Reachable boards -/

/-- The boards that come of a reset: they run, their pins are driven, and they are told when to
    finish. -/
inductive Reachable : DemoBoard → Prop
  | start (frequency : Nat) : Reachable (start frequency)
  | runBurst {board : DemoBoard} (limit : Nat) :
    Reachable board → Reachable (board.runBurst limit).2
  | drive {board : DemoBoard} (pin : Pin) (level : Bool) :
    Reachable board → Reachable (board.drive pin level)
  | haltAfter {board : DemoBoard} (cycles : Nat) :
    Reachable board → Reachable (board.haltAfter cycles)

/-- The picture memory of a reachable board has a byte for each eight pixels. -/
theorem Reachable.size_vram (h : Reachable board) :
    board.game.vram.size = Game.width * Game.height / 8 := by
  induction h with
  | start frequency => exact Array.size_replicate
  | runBurst limit _ ih =>
    refine runTo_preserves (p := fun next => next.game.vram.size = Game.width * Game.height / 8)
      (fun next hnext => ?_) (fun _ _ hnext => hnext) ih _
    -- A frame is painted on a dark picture, a strobe repaints the block in place.
    simp only [runEvent]
    split
    · exact Game.size_frame ..
    · split
      · rw [Game.size_strobe, hnext]
      · exact hnext
  | drive pin level _ ih => exact ih
  | haltAfter cycles _ ih => exact ih

end DemoBoard

end Handheld
