import Handheld.Proofs.DemoRun
import Handheld.Proofs.Step
import Mathlib.Tactic.Common

/-!
# Timers that do not drift

A timer is looked at only between bursts, so it fires late. On a board whose bursts are never longer
than a sampling period (`Board.Steady`) the lateness does not add up: a timer that fires less than a
period late keeps its phase, and it is then never a whole period late.

* `Timer.OnTime`: the deadline of a timer that has fired `count` times lies `count + 1` periods
  after its origin, and the present cycle lies in the period before it. Looking at the timer after a
  burst preserves this (`Timer.OnTime.poll`).
* `Board.Forward`: all that some results need of a board, which is that no burst takes its cycle
  counter back, and that it stands still (`Board.Still`) while pins are driven.
* `Scheduler.Ongoing`: what can happen to a scheduler up to a moment at which it has not ended, with
  the cycles at which each timer fired.
* `Scheduler.fired_eq_div`: at any such moment either timer has fired once for each whole period
  that has passed, each time less than a burst late.
-/

namespace Handheld

/-! ## One timer -/

namespace Timer

variable {timer : Timer} {origin count cycle now most : Nat}

/-- A timer that has fired `count` times since its origin, each time in the period after the
    deadline it was meant for. -/
structure OnTime (timer : Timer) (origin count cycle : Nat) : Prop where
  deadline : timer.deadline = origin + (count + 1) * timer.period
  reached : origin + count * timer.period ≤ cycle
  ahead : cycle < timer.deadline

/-- The number of firings is that of the whole periods since the origin. -/
theorem OnTime.count_eq (h : timer.OnTime origin count cycle) :
    count = (cycle - origin) / timer.period := by
  obtain ⟨hdeadline, hreached, hahead⟩ := h
  rw [hdeadline] at hahead
  exact (Nat.div_eq_of_lt_le (by omega) (by omega)).symm

/-- A timer that starts has not fired yet. -/
theorem onTime_start (now period : Nat) (task : Task) (period_pos : 0 < period) :
    (start now period task period_pos).OnTime now 0 now where
  deadline := by simp [start]
  reached := by simp
  ahead := by simpa [start] using period_pos

/-- A timer that is looked at after less than a period keeps its phase. -/
theorem OnTime.poll (h : timer.OnTime origin count cycle) (hle : cycle ≤ now)
    (hmost : now ≤ cycle + most) (hperiod : most ≤ timer.period) :
    (timer.poll now).OnTime origin (count + timer.fires now) now := by
  obtain ⟨hdeadline, hreached, hahead⟩ := h
  rcases Nat.lt_or_ge now timer.deadline with hlt | hdue
  · -- It is not due yet, and nothing changes.
    obtain ⟨hpoll, hfires⟩ := poll_of_lt hlt
    rw [hpoll, hfires]
    exact ⟨hdeadline, Nat.le_trans hreached hle, hlt⟩
  · -- It fires, less than a period late, so that the next deadline lies ahead.
    have hlate : now < timer.deadline + timer.period := by omega
    obtain ⟨hpoll, hfires⟩ := poll_of_le hdue
    have hnext := deadline_reschedule_of_lt hlate
    rw [hpoll, hfires]
    refine ⟨?_, hdeadline ▸ hdue, hnext ▸ hlate⟩
    rw [hnext, hdeadline]
    exact (Nat.add_assoc ..).trans (congrArg (origin + ·) (Nat.succ_mul (count + 1) _).symm)

/-- A timer fires less than a burst after its deadline. -/
theorem OnTime.lateness (h : timer.OnTime origin count cycle) (hmost : now ≤ cycle + most)
    (hdue : timer.isDue now = true) :
    origin + (count + 1) * timer.period ≤ now ∧
      now < origin + (count + 1) * timer.period + most := by
  obtain ⟨hdeadline, -, hahead⟩ := h
  rw [isDue, decide_eq_true_eq] at hdue
  rw [← hdeadline]
  exact ⟨hdue, by omega⟩

end Timer

/-! ## Boards -/

/-- The cycle counter of a board stands still while a pin is driven. -/
def Board.Still (σ : Type) [Board σ] : Prop :=
  ∀ (board : σ) (pin : Pin) (level : Bool),
    Board.cycle (Board.drive board pin level) = Board.cycle board

/-- The cycle counter of a board stands still between bursts, and never goes back in a burst of
    `limit` cycles. -/
structure Board.Forward (σ : Type) [Board σ] (limit : Nat) : Prop where
  still : Board.Still σ
  le_cycle : ∀ {board next : σ} {burst : Burst},
    Board.runBurst board limit = .ok (burst, next) → Board.cycle board ≤ Board.cycle next

/-- The cycle counter of a board goes forward, and in a burst of `limit` cycles by `most` cycles at
    most. -/
structure Board.Steady (σ : Type) [Board σ] (limit most : Nat) : Prop
    extends Board.Forward σ limit where
  cycle_le : ∀ {board next : σ} {burst : Burst},
    Board.runBurst board limit = .ok (burst, next) → Board.cycle next ≤ Board.cycle board + most

/-- A burst of the demo board ends when its limit is reached, at the latest. -/
theorem DemoBoard.steady (limit : Nat) : Board.Steady DemoBoard limit limit where
  still _ _ _ := rfl
  le_cycle {board next burst} h := by
    cases h
    exact Nat.le_trans (board.cycle_le_burstEnd limit) (Nat.le_of_eq (board.cycle_runTo _).symm)
  cycle_le {board next burst} h := by
    cases h
    exact Nat.le_trans (Nat.le_of_eq (board.cycle_runTo _)) (board.burstEnd_le limit)

section Still

variable {σ : Type} [Board σ]

theorem Board.Still.drive (still : Board.Still σ) {cycle : Nat} (board : σ) (pin : Pin)
    (level : Bool) (h : Board.cycle board = cycle) :
    Board.cycle (Board.drive board pin level) = cycle :=
  (still ..).trans h

theorem Lines.cycle_pullUp (still : Board.Still σ) (lines : Lines) (board : σ) :
    Board.cycle (lines.pullUp board) = Board.cycle board :=
  Lines.pullUp_induction (P := fun next => Board.cycle next = Board.cycle board) still.drive lines
    rfl

theorem Scheduler.cycle_drainInput (still : Board.Still σ) (s : Scheduler σ) :
    Board.cycle s.drainInput.board = Board.cycle s.board :=
  Channel.drain_induction (P := fun next => Board.cycle next = Board.cycle s.board) still.drive
    s.channel rfl

theorem Scheduler.cycle_input (still : Board.Still σ) (s : Scheduler σ) (event : ButtonEvent) :
    Board.cycle (s.input event).2.board = Board.cycle s.board := by
  rw [input_eq]
  cases hwrite : s.channel.lines.write? s.board event with
  | none => rfl
  | some written =>
    exact Lines.write?_induction (P := fun next => Board.cycle next = Board.cycle s.board)
      still.drive rfl hwrite

end Still

/-! ## The two timers of a scheduler -/

/-- The period of a task. -/
def Settings.period (settings : Settings) : Task → Nat
  | .sampling => settings.samplingPeriod
  | .redraw => settings.redrawPeriod

/-- No task is done more often than the panel is sampled. -/
theorem Settings.samplingPeriod_le_period (settings : Settings) (task : Task) :
    settings.samplingPeriod ≤ settings.period task := by
  cases task with
  | sampling => exact Nat.le_refl _
  | redraw => exact settings.samplingPeriod_le

/-- How often a task has been done. -/
def Stats.fired (stats : Stats) : Task → Nat
  | .sampling => stats.samples
  | .redraw => stats.redraws

namespace Scheduler

variable {σ : Type} [Board σ] {s first : Scheduler σ} {state : CpuState} {now start finish : Nat}
  {turn : Turn σ} {limit most : Nat}

/-- The timer of a task. -/
def timer (s : Scheduler σ) : Task → Timer
  | .sampling => s.sampling
  | .redraw => s.redraw

/-- Unless it ends, the second half of a step looks at both timers once, at the cycle at which the
    burst ended. -/
theorem settle_timer (h : s.settle state now = .ok turn)
    (hends : ∀ state, turn.outcome ≠ .ended state) (task : Task) :
    turn.scheduler.timer task = (s.timer task).poll (Board.cycle s.board) ∧
    turn.scheduler.stats.fired task =
      s.stats.fired task + (s.timer task).fires (Board.cycle s.board) := by
  cases settle_ok h with
  | ended => exact absurd rfl (hends state)
  | yield => cases task <;> exact ⟨rfl, rfl⟩
  | proceed => cases task <;> exact ⟨rfl, rfl⟩

/-- The second half of a step leaves the cycle counter alone. -/
theorem cycle_settle (still : Board.Still σ) (h : s.settle state now = .ok turn) :
    Board.cycle turn.scheduler.board = Board.cycle s.board :=
  settle_induction (P := fun next => Board.cycle next = Board.cycle s.board) still.drive rfl h

/-- What a step that does not end does to the two timers of a scheduler. -/
theorem step_timer (forward : Board.Forward σ s.settings.burst)
    (h : s.step start finish = .ok turn) (hends : ∀ state, turn.outcome ≠ .ended state) :
    Board.cycle s.board ≤ Board.cycle turn.scheduler.board ∧
    turn.scheduler.settings = s.settings ∧
    ∀ task,
      turn.scheduler.timer task = (s.timer task).poll (Board.cycle turn.scheduler.board) ∧
      turn.scheduler.stats.fired task =
        s.stats.fired task + (s.timer task).fires (Board.cycle turn.scheduler.board) := by
  rcases step_ok h with ⟨state, -, rfl⟩ | ⟨-, state, s₁, hlaunch, hsettle⟩
  · exact absurd rfl (hends state)
  · have hcycle := cycle_settle forward.still hsettle
    have htimer := settle_timer hsettle hends
    have hsettings := step_settings h
    obtain ⟨burst, board, inner, queue, hrun, -, rfl⟩ := launch_ok hlaunch
    rw [hcycle]
    refine ⟨cycle_drainInput forward.still s ▸ forward.le_cycle hrun, hsettings,
      fun task => ?_⟩
    cases task with
    | sampling => exact htimer .sampling
    | redraw => exact htimer .redraw

/-- A step on a steady board takes its counter `most` cycles further at most. -/
theorem cycle_step_le (steady : Board.Steady σ s.settings.burst most)
    (h : s.step start finish = .ok turn) :
    Board.cycle turn.scheduler.board ≤ Board.cycle s.board + most := by
  rcases step_ok h with ⟨state, -, rfl⟩ | ⟨-, state, s₁, hlaunch, hsettle⟩
  · exact Nat.le_add_right ..
  · rw [cycle_settle steady.still hsettle]
    obtain ⟨burst, board, inner, queue, hrun, -, rfl⟩ := launch_ok hlaunch
    exact cycle_drainInput steady.still s ▸ steady.cycle_le hrun

/-! ## Runs -/

/-- The cycles at which a timer fired between two moments a step apart. -/
def firings (before after : Scheduler σ) (task : Task) : List Nat :=
  if after.stats.fired task = before.stats.fired task then [] else [Board.cycle after.board]

/-- A timer that was looked at fired then, once, if it was due. -/
theorem firings_eq {before after : Scheduler σ} {task : Task} {timer : Timer}
    (h : after.stats.fired task = before.stats.fired task + timer.fires (Board.cycle after.board)) :
    firings before after task =
      if timer.isDue (Board.cycle after.board) then [Board.cycle after.board] else [] := by
  rw [firings]
  rw [Timer.fires] at h
  split at h
  · next hdue => rw [if_neg (by omega), if_pos hdue]
  · next hdue => rw [if_pos (by omega), if_neg hdue]

/-- What can have happened to a scheduler since the moment `first`, up to a moment at which it has
    not ended: steps, and input that was reported in between in either way, with the cycles at which
    each timer fired. -/
inductive Ongoing (first : Scheduler σ) : (Task → List Nat) → Scheduler σ → Prop
  | start : Ongoing first (fun _ => []) first
  | step {log : Task → List Nat} {s : Scheduler σ} {start finish : Nat} {turn : Turn σ} :
    Ongoing first log s → s.step start finish = .ok turn →
    (∀ state, turn.outcome ≠ .ended state) →
    Ongoing first (fun task => log task ++ firings s turn.scheduler task) turn.scheduler
  | input {log : Task → List Nat} {s : Scheduler σ} (event : ButtonEvent) :
    Ongoing first log s → Ongoing first log (s.input event).2
  | send {log : Task → List Nat} {s : Scheduler σ} (sender : Sender) (event : ButtonEvent) :
    Ongoing first log s → Ongoing first log (s.send sender event).2.2

/-- The invariant of the timers: both are on time, and each of their firings was late by less than
    `most` cycles. -/
structure Timely (settings : Settings) (origin most : Nat) (log : Task → List Nat)
    (s : Scheduler σ) : Prop where
  settings_eq : s.settings = settings
  period : ∀ task, (s.timer task).period = settings.period task
  onTime : ∀ task, (s.timer task).OnTime origin (s.stats.fired task) (Board.cycle s.board)
  length_log : ∀ task, (log task).length = s.stats.fired task
  lateness : ∀ task k cycle, (log task)[k]? = some cycle →
    origin + (k + 1) * settings.period task ≤ cycle ∧
      cycle < origin + (k + 1) * settings.period task + most

variable {settings : Settings} {origin : Nat} {log : Task → List Nat}

/-- A step preserves the invariant. -/
theorem Timely.step (hmost : most ≤ settings.samplingPeriod)
    (steady : Board.Steady σ settings.burst most) (h : Timely settings origin most log s)
    (hstep : s.step start finish = .ok turn) (hends : ∀ state, turn.outcome ≠ .ended state) :
    Timely settings origin most (fun task => log task ++ firings s turn.scheduler task)
      turn.scheduler := by
  obtain ⟨rfl, hperiod, honTime, hlength, hlateness⟩ := h
  obtain ⟨hle, hsettings, htimer⟩ := step_timer steady.toForward hstep hends
  have hburst := cycle_step_le steady hstep
  have hshort (task : Task) : most ≤ (s.timer task).period := by
    rw [hperiod]
    exact Nat.le_trans hmost (s.settings.samplingPeriod_le_period task)
  refine ⟨hsettings, fun task => ?_, fun task => ?_, fun task => ?_, fun task k cycle hk => ?_⟩
  · rw [(htimer task).1, Timer.period_poll, hperiod]
  · rw [(htimer task).1, (htimer task).2]
    exact (honTime task).poll hle hburst (hshort task)
  · rw [List.length_append, hlength, firings_eq (htimer task).2, (htimer task).2, Timer.fires]
    split <;> rfl
  · rcases Nat.lt_or_ge k (log task).length with hold | hnew
    · exact hlateness task k cycle (by rwa [List.getElem?_append_left hold] at hk)
    · rw [List.getElem?_append_right hnew, firings_eq (htimer task).2] at hk
      split at hk
      · next hdue =>
        -- The firing is the one that this step added: it is of the deadline that was next.
        obtain ⟨hzero, rfl⟩ :
            k - (log task).length = 0 ∧ Board.cycle turn.scheduler.board = cycle := by
          simpa [List.getElem?_singleton] using hk
        have hcount : k = s.stats.fired task := by
          have := hlength task
          omega
        rw [hcount, ← hperiod]
        exact (honTime task).lateness hburst hdue
      · cases hk

/-- What leaves the timers, their counts and the cycle counter alone preserves the invariant. -/
theorem Timely.congr {next : Scheduler σ} (h : Timely settings origin most log s)
    (hsettings : next.settings = s.settings) (htimer : next.timer = s.timer)
    (hfired : next.stats.fired = s.stats.fired)
    (hcycle : Board.cycle next.board = Board.cycle s.board) :
    Timely settings origin most log next where
  settings_eq := hsettings.trans h.settings_eq
  period := htimer ▸ h.period
  onTime := by
    rw [htimer, hfired, hcycle]
    exact h.onTime
  length_log := hfired ▸ h.length_log
  lateness := h.lateness

/-- A new scheduler is on time. -/
theorem timely_new (steady : Board.Steady σ settings.burst most) {board : σ} {channel : Channel}
    (hnew : Scheduler.new board channel settings = .ok s) :
    Timely settings (Board.cycle board) most (fun _ => []) s := by
  obtain ⟨-, rfl⟩ := new_ok hnew
  refine ⟨rfl, fun task => ?_, fun task => ?_, fun task => ?_, nofun⟩
  · cases task <;> rfl
  · rw [Lines.cycle_pullUp steady.still]
    cases task <;> exact Timer.onTime_start ..
  · cases task <;> rfl

/-- The invariant holds as long as a scheduler has not ended. -/
theorem Ongoing.timely (hmost : most ≤ settings.samplingPeriod)
    (steady : Board.Steady σ settings.burst most)
    (hfirst : Timely settings origin most (fun _ => []) first) (h : Ongoing first log s) :
    Timely settings origin most log s := by
  induction h with
  | start => exact hfirst
  | step _ hstep hends ih => exact ih.step hmost steady hstep hends
  | input event _ ih =>
    exact ih.congr rfl (funext fun task => by cases task <;> rfl)
      (funext fun task => by cases task <;> rfl) (cycle_input steady.still _ event)
  | send sender event _ ih =>
    exact ih.congr rfl (funext fun task => by cases task <;> rfl)
      (funext fun task => by cases task <;> rfl) rfl

/-- Timers do not drift. On a board whose bursts advance the counter by `most` cycles at most, and
    thus by no more than a sampling period, a scheduler that was made at the cycle `origin` and has
    come to `now` without ending has fired either timer once for each whole period in between, and
    the next deadline is the next multiple of the period; firing `k` came less than `most` cycles
    after the `k`-th multiple. If a redraw takes a whole number of samples, there is thus always one
    redraw for so many samples. -/
theorem fired_eq_div (hmost : most ≤ settings.samplingPeriod)
    (steady : Board.Steady σ settings.burst most) {board : σ} {channel : Channel}
    (hnew : Scheduler.new board channel settings = .ok first) (hrun : Ongoing first log s)
    {origin now : Nat} (horigin : Board.cycle board = origin) (hnow : Board.cycle s.board = now) :
    origin ≤ now ∧
    (∀ task,
      s.stats.fired task = (now - origin) / settings.period task ∧
      (s.timer task).deadline = origin + (s.stats.fired task + 1) * settings.period task ∧
      (log task).length = s.stats.fired task ∧
      ∀ k cycle, (log task)[k]? = some cycle →
        origin + (k + 1) * settings.period task ≤ cycle ∧
          cycle < origin + (k + 1) * settings.period task + most) ∧
    ∀ k, settings.redrawPeriod = k * settings.samplingPeriod →
      s.stats.redraws = s.stats.samples / k := by
  subst horigin hnow
  have h := hrun.timely hmost steady (timely_new steady hnew)
  have hcount (task : Task) :
      s.stats.fired task = (Board.cycle s.board - Board.cycle board) / settings.period task := by
    rw [(h.onTime task).count_eq, h.period]
  refine ⟨?_, fun task => ⟨hcount task, ?_, h.length_log task, h.lateness task⟩, fun k hk => ?_⟩
  · exact Nat.le_trans (Nat.le_add_right ..) (h.onTime .sampling).reached
  · rw [(h.onTime task).deadline, h.period]
  · have hsamples := hcount .sampling
    have hredraws := hcount .redraw
    simp only [Stats.fired, Settings.period] at hsamples hredraws
    rw [hredraws, hsamples, Nat.div_div_eq_div_mul, hk, Nat.mul_comm]

end Scheduler

/-! ## An irregular board -/

/-- A board that only counts. Every other of its bursts stops after one cycle. -/
structure Metronome where
  cycle : Nat
  short : Bool := false
  deriving DecidableEq, Repr

namespace Metronome

instance : Board Metronome where
  runBurst board limit :=
    let cycles := if board.short then min 1 limit else limit
    .ok ({ cycles, state := .running }, { cycle := board.cycle + cycles, short := !board.short })
  cycle board := board.cycle
  drive board _ _ := board
  frequency _ := 1000
  size _ := (1, 8)
  grid _ := #[1]
  flags _ := {}

theorem steady (limit : Nat) : Board.Steady Metronome limit limit where
  still _ _ _ := rfl
  le_cycle h := by
    cases h
    exact Nat.le_add_right ..
  cycle_le h := by
    cases h
    simp only [Board.cycle]
    split <;> omega

/-- Settings under which bursts and periods do not fit together. -/
def settings : Settings :=
  { clock := ⟨1000, by decide, by decide⟩
    burst := 5
    samplingPeriod := 7
    redrawPeriod := 14
    decay := Settings.defaultDecay
    increase := Settings.defaultIncrease
    throttle := true
    burst_pos := by decide
    samplingPeriod_pos := by decide
    samplingPeriod_le := by decide }

end Metronome

namespace Scheduler

/-- Three bursts, the second one short: the first sample comes at cycle 111, four cycles late. -/
theorem fired_eq_div_metronome :
    ∃ first log s, Scheduler.new ({ cycle := 100 } : Metronome) {} Metronome.settings = .ok first ∧
      Ongoing first log s ∧ Board.cycle s.board = 111 ∧ log .sampling = [111] ∧
      s.stats.fired .sampling = (111 - 100) / 7 ∧ (s.timer .sampling).deadline = 100 + 2 * 7 := by
  obtain ⟨first, log, s, hnew, hrun, hnow, hlog⟩ : ∃ first log s,
      Scheduler.new ({ cycle := 100 } : Metronome) {} Metronome.settings = .ok first ∧
      Ongoing first log s ∧ Board.cycle s.board = 111 ∧ log .sampling = [111] :=
    ⟨_, _, _, rfl,
      @Ongoing.step _ _ _ _ _ 0 0 _ (@Ongoing.step _ _ _ _ _ 0 0 _ (@Ongoing.step _ _ _ _ _ 0 0 _
        .start (by rfl) (by nofun)) (by rfl) (by nofun)) (by rfl) (by nofun), rfl, rfl⟩
  obtain ⟨-, htimers, -⟩ :=
    fired_eq_div (by decide) (Metronome.steady 5) hnew hrun (by rfl) hnow
  obtain ⟨hcount, hdeadline, -⟩ := htimers .sampling
  rw [hcount] at hdeadline
  exact ⟨first, log, s, hnew, hrun, hnow, hlog, hcount, hdeadline⟩

end Scheduler

end Handheld
