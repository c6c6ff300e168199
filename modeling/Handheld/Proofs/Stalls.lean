import Handheld.Board.Scripted
import Handheld.Proofs.Timekeeping

/-!
# Timers and stalls

A board may stand still for any number of bursts, and may then be far ahead after a single one. The
timers of `Handheld.Proofs.Timekeeping` were never a whole period late; here nothing is known of how
far a burst takes the cycle counter, but that it never goes back (`Board.Forward`).

What is left of being on time is a window: the deadline of a timer lies ahead of the present cycle,
by a period at most (`Timer.Within`). A look at the timer preserves this however much time has
passed, by either branch of `Timer.reschedule`. A deadline moves by a period at least each time, so
a timer never fires more often than once for each whole period since its start, and a stall is not
made up for by a volley of firings (`Scheduler.deadline_within_period`).
-/

namespace Handheld

/-! ## One timer -/

namespace Timer

variable {timer : Timer} {origin count cycle now : Nat}

/-- A timer whose deadline lies ahead, by a period at most, and that has moved on by a period at
    least at each of the `count` times that it has fired since its origin. -/
structure Within (timer : Timer) (origin count cycle : Nat) : Prop where
  ahead : cycle < timer.deadline
  near : timer.deadline ≤ cycle + timer.period
  rate : origin + (count + 1) * timer.period ≤ timer.deadline

/-- Time has passed since the origin. -/
theorem Within.origin_le (h : timer.Within origin count cycle) :
    origin + count * timer.period ≤ cycle := by
  have hnear := h.near
  have hrate := h.rate
  rw [Nat.add_mul, Nat.one_mul] at hrate
  omega

/-- A timer does not fire more often than there are whole periods since its origin. -/
theorem Within.count_le (h : timer.Within origin count cycle) :
    count ≤ (cycle - origin) / timer.period := by
  rw [Nat.le_div_iff_mul_le timer.period_pos]
  have hle := h.origin_le
  omega

theorem within_start (now period : Nat) (task : Task) (period_pos : 0 < period) :
    (start now period task period_pos).Within now 0 now where
  ahead := Nat.lt_add_of_pos_right period_pos
  near := Nat.le_refl _
  rate := by simp [start]

/-- A timer stays within its window when it is looked at, however much time has passed. -/
theorem Within.poll (h : timer.Within origin count cycle) (hle : cycle ≤ now) :
    (timer.poll now).Within origin (count + timer.fires now) now := by
  obtain ⟨hahead, hnear, hrate⟩ := h
  rcases Nat.lt_or_ge now timer.deadline with hlt | hdue
  · -- It is not due yet, and time has come nearer to its deadline.
    obtain ⟨hpoll, hfires⟩ := poll_of_lt hlt
    rw [hpoll, hfires]
    exact ⟨hlt, Nat.le_trans hnear (Nat.add_le_add_right hle _), hrate⟩
  · obtain ⟨hpoll, hfires⟩ := poll_of_le hdue
    have hrate' : origin + (count + 1 + 1) * timer.period ≤ timer.deadline + timer.period := by
      rw [Nat.add_mul (count + 1), Nat.one_mul, ← Nat.add_assoc]
      exact Nat.add_le_add_right hrate _
    have hpos := timer.period_pos
    rw [hpoll, hfires]
    rcases Nat.lt_or_ge now (timer.deadline + timer.period) with hlate | hlost
    · -- It keeps its phase: the deadline that it missed is not ahead any more.
      have hnext := deadline_reschedule_of_lt hlate
      refine ⟨?_, ?_, ?_⟩
      · rwa [hnext]
      · rw [hnext]
        exact Nat.add_le_add_right hdue _
      · rw [hnext]
        exact hrate'
    · -- It starts anew, a period ahead of the present cycle.
      have hnext := deadline_reschedule_of_le hlost
      refine ⟨?_, ?_, ?_⟩
      · rw [hnext]
        exact Nat.lt_add_of_pos_right hpos
      · rw [hnext]
        exact Nat.le_refl _
      · rw [hnext]
        exact Nat.le_trans hrate' (Nat.le_trans hlost (Nat.le_add_right ..))

end Timer

/-- The counter of a scripted board is only ever moved on. -/
theorem ScriptedBoard.forward (limit : Nat) : Board.Forward ScriptedBoard limit where
  still _ _ _ := rfl
  le_cycle {board next burst} h := by
    simp only [Board.runBurst, runBurst] at h
    cases hending : (board.bursts.headD {}).ending with
    | none =>
      rw [hending] at h
      cases h
    | some state =>
      rw [hending] at h
      cases h
      exact Nat.le_add_right ..

/-! ## Both timers of a scheduler -/

namespace Scheduler

variable {σ : Type} [Board σ] {s made : Scheduler σ} {settings : Settings} {board : σ}
  {channel : Channel} {log : Task → List Nat}

/-- As long as a scheduler has not ended both its timers are within their windows. -/
theorem Ongoing.within (forward : Board.Forward σ settings.burst)
    (hnew : Scheduler.new board channel settings = .ok made) {inner : Option Sender}
    (hrun : Ongoing { made with inner } log s) :
    s.settings = settings ∧ ∀ task,
      (s.timer task).period = settings.period task ∧
      (s.timer task).Within (Board.cycle board) (s.stats.fired task) (Board.cycle s.board) := by
  induction hrun with
  | start =>
    obtain ⟨-, rfl⟩ := new_ok hnew
    refine ⟨rfl, fun task => ?_⟩
    rw [Lines.cycle_pullUp forward.still]
    cases task with
    | sampling => exact ⟨rfl, Timer.within_start ..⟩
    | redraw => exact ⟨rfl, Timer.within_start ..⟩
  | step _ hstep hends ih =>
    obtain ⟨rfl, hwithin⟩ := ih
    obtain ⟨hle, hsettings, htimer⟩ := step_timer forward hstep hends
    refine ⟨hsettings, fun task => ?_⟩
    rw [(htimer task).1, (htimer task).2, Timer.period_poll]
    exact ⟨(hwithin task).1, (hwithin task).2.poll hle⟩
  | input event _ ih =>
    rw [cycle_input forward.still]
    refine ⟨ih.1, fun task => ?_⟩
    cases task with
    | sampling => exact ih.2 .sampling
    | redraw => exact ih.2 .redraw
  | send sender event _ ih =>
    refine ⟨ih.1, fun task => ?_⟩
    cases task with
    | sampling => exact ih.2 .sampling
    | redraw => exact ih.2 .redraw

/-- A stall is not made up for. On a board whose cycle counter never goes back, however far a burst
    takes it, let a scheduler be made and come, by steps and input in any order, to a moment at
    which it has not ended. The next deadline of either timer lies ahead of the present cycle, by a
    period at most. It lies at least a period further for each firing than the first one did, so
    that the timer has fired at most once for each whole period since then. In the next step, unless
    that ends the run, the timer fires exactly if its deadline is reached, and then once: it keeps
    its phase exactly if it is less than a whole period late, and else starts anew from the present
    cycle. -/
theorem deadline_within_period (forward : Board.Forward σ settings.burst)
    (hnew : Scheduler.new board channel settings = .ok made) {inner : Option Sender}
    (hrun : Ongoing { made with inner } log s) (task : Task) :
    (Board.cycle s.board < (s.timer task).deadline ∧
      (s.timer task).deadline ≤ Board.cycle s.board + settings.period task) ∧
    (Board.cycle board + (s.stats.fired task + 1) * settings.period task ≤
        (s.timer task).deadline ∧
      Board.cycle board ≤ Board.cycle s.board ∧
      s.stats.fired task ≤ (Board.cycle s.board - Board.cycle board) / settings.period task) ∧
    ∀ start finish turn, s.step start finish = .ok turn →
      (∀ state, turn.outcome ≠ .ended state) →
      let now := Board.cycle turn.scheduler.board
      let deadline := (s.timer task).deadline
      let next := (turn.scheduler.timer task).deadline
      (now < deadline → turn.scheduler.stats.fired task = s.stats.fired task ∧ next = deadline) ∧
      (deadline ≤ now → turn.scheduler.stats.fired task = s.stats.fired task + 1) ∧
      (deadline ≤ now →
        (next = deadline + settings.period task ↔ now < deadline + settings.period task)) ∧
      (deadline + settings.period task ≤ now → next = now + settings.period task) := by
  obtain ⟨rfl, hwithin⟩ := hrun.within forward hnew
  obtain ⟨hperiod, hwithin⟩ := hwithin task
  have hpos := (s.timer task).period_pos
  rw [← hperiod]
  refine ⟨⟨hwithin.ahead, hwithin.near⟩, ⟨hwithin.rate, ?_, hwithin.count_le⟩, ?_⟩
  · exact Nat.le_trans (Nat.le_add_right ..) hwithin.origin_le
  intro start finish turn hstep hends now deadline next
  obtain ⟨-, -, htimer⟩ := step_timer forward hstep hends
  obtain ⟨htimer, hfired⟩ := htimer task
  have hnext : next = ((s.timer task).poll now).deadline := congrArg Timer.deadline htimer
  refine ⟨fun hlt => ?_, fun hdue => ?_, fun hdue => ?_, fun hlost => ?_⟩
  · obtain ⟨hpoll, hfires⟩ := Timer.poll_of_lt hlt
    rw [hfired, hfires, hnext, hpoll]
    exact ⟨rfl, rfl⟩
  · rw [hfired, (Timer.poll_of_le hdue).2]
  · rw [hnext, (Timer.poll_of_le hdue).1]
    refine ⟨fun hkept => Nat.lt_of_not_le fun hlost => ?_, Timer.deadline_reschedule_of_lt⟩
    rw [Timer.deadline_reschedule_of_le hlost] at hkept
    omega
  · rw [hnext, (Timer.poll_of_le (Nat.le_trans (Nat.le_add_right ..) hlost)).1,
      Timer.deadline_reschedule_of_le hlost]

/-- A board that jumps from cycle 100 to cycle 114 in its first burst. -/
def leaping : ScriptedBoard :=
  { frequency := 1000
    width := 1
    height := 8
    cycle := 100
    grid := #[1]
    flags := {}
    bursts := [{ advance := some 14 }] }

/-- At cycle 114 the sampling timer, due at 107, is exactly a period late and starts anew; the
    redraw timer, due at 114, keeps its phase. -/
theorem deadline_within_period_leaping :
    ∃ made turn, Scheduler.new leaping {} Metronome.settings = .ok made ∧
      made.step 0 0 = .ok turn ∧ Board.cycle turn.scheduler.board = 114 ∧
      (turn.scheduler.timer .sampling).deadline = 114 + 7 ∧
      (turn.scheduler.timer .redraw).deadline = 114 + 14 ∧
      (∀ task, turn.scheduler.stats.fired task = 1) := by
  obtain ⟨made, turn, hnew, hstep, hnow, houtcome, hdeadline⟩ : ∃ made turn,
      Scheduler.new leaping {} Metronome.settings = .ok made ∧ made.step 0 0 = .ok turn ∧
      Board.cycle turn.scheduler.board = 114 ∧ turn.outcome = .yield ∧
      ((made.timer .sampling).deadline = 107 ∧ (made.timer .redraw).deadline = 114 ∧
        ∀ task, made.stats.fired task = 0) :=
    ⟨_, _, rfl, rfl, rfl, rfl, rfl, rfl, by rintro (_ | _) <;> rfl⟩
  obtain ⟨hsampling, hredraw, hfired⟩ := hdeadline
  have hends (state : CpuState) : turn.outcome ≠ .ended state := by
    rw [houtcome]
    exact nofun
  have hstart : Ongoing { made with inner := none } (fun _ => []) made := by
    obtain ⟨-, rfl⟩ := new_ok hnew
    exact .start
  have htimer := deadline_within_period (ScriptedBoard.forward _) hnew hstart
  obtain ⟨-, hfires, -, hlost⟩ := (htimer .sampling).2.2 0 0 turn hstep hends
  obtain ⟨-, hfires', hkept, -⟩ := (htimer .redraw).2.2 0 0 turn hstep hends
  rw [hnow, hsampling] at hfires hlost
  rw [hnow, hredraw] at hfires' hkept
  refine ⟨made, turn, hnew, hstep, hnow, hlost (by decide), ?_, ?_⟩
  · exact (hkept (by decide)).2 (by decide)
  · rintro (_ | _)
    · rw [hfires (by decide), hfired]
    · rw [hfires' (by decide), hfired]

end Scheduler

end Handheld
