import Handheld.Proofs.DemoRun
import Handheld.Proofs.Independence
import Handheld.Proofs.Timekeeping

/-!
# The length of a burst

On the demo board it does not show how long a burst is, as long as both timers can fire on the end
of one: whatever is reported, every frame is the same.

The bursts of two schedulers end at different cycles, so the two cannot be compared step by step.
They are compared where both stop, at the deadline that comes first: the bursts up to there amount
to a single long one (`leap`), whatever their length.

* `Timer.Aligned`: a timer whose deadline is ahead, at the end of some burst. A timer stays so when
  it is looked at after each burst (`Timer.Aligned.poll`).
* `Scheduler.Aligned`: the invariant of a scheduler on a demo board, kept by input and by steps.
* `Scheduler.reaches_of_leap`: bursts up to the next deadline come to what a leap comes to.
* `Scheduler.exists_reaches`: what an idling scheduler reaches is a function of what it is without
  its bursts, by induction on the cycles that are left until the next redraw.
-/

namespace Handheld

/-- What is reported before a scheduler idles, and what the clock on the wall reads when it begins.
    -/
structure Visit where
  reports : List ButtonEvent
  wall : Nat

/-- Deliver the reports of each visit inline and then idle. What came of each report is kept, and
    where idling has come to; `none` if the limit of steps was ever not enough. -/
def Scheduler.idleRun {σ : Type} [Board σ] (s : Scheduler σ) (limit : Nat) :
    List Visit → Except Fault (Option (List (List Notice × Idle σ)))
  | [] => .ok (some [])
  | visit :: visits => do
    let (notices, s) := s.inputAll visit.reports
    match ← s.idle visit.wall limit with
    | none => return none
    | some idle => return (← idle.scheduler.idleRun limit visits).map ((notices, idle) :: ·)

/-! ## Timers and bursts -/

/-- A timer whose deadline lies ahead, by at most a period, at the end of a burst. -/
structure Timer.Aligned (timer : Timer) (burst cycle : Nat) : Prop where
  ahead : cycle < timer.deadline
  le_period : timer.deadline ≤ cycle + timer.period
  dvd_rest : burst ∣ timer.deadline - cycle
  dvd_period : burst ∣ timer.period

namespace Timer

variable {timer : Timer} {burst cycle : Nat}

/-- No deadline is passed over. -/
theorem Aligned.add_le (h : timer.Aligned burst cycle) : cycle + burst ≤ timer.deadline := by
  have hle := Nat.le_of_dvd (Nat.sub_pos_of_lt h.ahead) h.dvd_rest
  have hahead := h.ahead
  omega

/-- An aligned timer that is looked at after a burst is aligned again. -/
theorem Aligned.poll (h : timer.Aligned burst cycle) :
    (timer.poll (cycle + burst)).Aligned burst (cycle + burst) := by
  have hle := h.add_le
  have hpos := timer.period_pos
  rw [Timer.poll]
  split
  · next hdue =>
    -- It fires exactly at its deadline, so the next one is a whole period away.
    have hnow : timer.deadline = cycle + burst :=
      Nat.le_antisymm (of_decide_eq_true hdue) hle
    have hnext : (timer.reschedule (cycle + burst)).deadline = cycle + burst + timer.period := by
      rw [reschedule]
      simp only [hnow]
      exact ite_self _
    constructor
    · omega
    · rw [hnext]
      exact Nat.le_refl _
    · rw [hnext, Nat.add_sub_cancel_left]
      exact h.dvd_period
    · exact h.dvd_period
  · next hdue =>
    -- The deadline has come a burst nearer.
    have hlt : cycle + burst < timer.deadline := Nat.lt_of_not_le (mt decide_eq_true hdue)
    constructor
    · exact hlt
    · exact Nat.le_trans h.le_period (by omega)
    · rw [← Nat.sub_sub]
      exact Nat.dvd_sub h.dvd_rest (Nat.dvd_refl burst)
    · exact h.dvd_period

theorem aligned_start (now period : Nat) (task : Task) (period_pos : 0 < period)
    (hdvd : burst ∣ period) : (Timer.start now period task period_pos).Aligned burst now where
  ahead := Nat.lt_add_of_pos_right period_pos
  le_period := Nat.le_refl _
  dvd_rest := by
    rw [start, Nat.add_sub_cancel_left]
    exact hdvd
  dvd_period := hdvd

end Timer

namespace Scheduler

variable {s : Scheduler DemoBoard} {settings : Settings} {start finish : Nat}
  {turn : Turn DemoBoard}

/-! ## The invariant -/

/-- A scheduler on a demo board, with inline delivery, that has not ended and whose timers both fire
    at the end of a burst. -/
structure Aligned (settings : Settings) (s : Scheduler DemoBoard) : Prop where
  settings_eq : s.settings = settings
  inline : s.channel.queue = none
  inner : s.inner = none
  running : s.phase = .running
  reachable : s.board.Reachable
  width : s.afterglow.width = Game.width
  height : s.afterglow.height = Game.height
  period : ∀ task, (s.timer task).period = settings.period task
  timer : ∀ task, (s.timer task).Aligned settings.burst s.board.cycle

theorem Aligned.quiet (h : s.Aligned settings) : s.Quiet := by
  intro queue hqueue
  rw [h.inline] at hqueue
  cases hqueue

/-- A redraw is never more than a period away. -/
theorem Aligned.rest_le (h : s.Aligned settings) :
    s.redraw.deadline - s.board.cycle ≤ settings.redrawPeriod := by
  have hdeadline : s.redraw.deadline ≤ s.board.cycle + s.redraw.period :=
    (h.timer .redraw).le_period
  have hperiod : s.redraw.period = settings.redrawPeriod := h.period .redraw
  omega

/-- Input that is delivered inline preserves the invariant. -/
theorem Aligned.input (h : s.Aligned settings) (event : ButtonEvent) :
    (s.input event).2.Aligned settings := by
  rw [input_eq]
  by_cases hpressed : s.channel.lines.isPressed event.button = event.pressed
  · rw [Lines.write?, if_pos hpressed]
    exact h
  · rw [Lines.write?, if_neg hpressed]
    exact ⟨h.settings_eq, h.inline, h.inner, h.running, h.reachable.drive .., h.width, h.height,
      h.period, h.timer⟩

theorem Aligned.inputAll (h : s.Aligned settings) (events : List ButtonEvent) :
    (s.inputAll events).2.Aligned settings :=
  inputAll_induction (fun _ event h => h.input event) h events

/-! ## Leaps -/

/-- The scheduler, without its bursts, after a burst of so many cycles. -/
def ran (s : Scheduler DemoBoard) (cycles : Nat) : Scheduler DemoBoard :=
  { s.plain with board := (s.board.runBurst cycles).2 }

/-- What a step with a burst of so many cycles comes to. -/
def leap (s : Scheduler DemoBoard) (cycles : Nat) : Except Fault (Turn DemoBoard) :=
  (s.ran cycles).settle (s.board.runBurst cycles).1.state 0

theorem quiet_ran (s : Scheduler DemoBoard) (cycles : Nat) : (s.ran cycles).Quiet := nofun

/-- A burst in which the program does not finish runs its full length. -/
theorem cycle_ran {cycles : Nat} (hstate : (s.board.runBurst cycles).1.state.isTerminal = false) :
    Board.cycle (s.ran cycles).board = s.board.cycle + cycles :=
  (DemoBoard.cycle_runTo ..).trans (DemoBoard.burstEnd_of_not_isTerminal hstate)

theorem Aligned.map_step (h : s.Aligned settings) (start finish : Nat) :
    (s.step start finish).map Turn.plain = s.leap settings.burst := by
  rw [step_plain h.quiet h.inner (by rw [h.running]; nofun), h.settings_eq]
  rfl

/-- A leap does not fail. -/
theorem Aligned.leap_ok (h : s.Aligned settings) (cycles : Nat) :
    ∃ turn, s.leap cycles = .ok turn ∧
      turn.scheduler.board = (s.board.runBurst cycles).2 ∧
      turn.scheduler.afterglow.width = Game.width ∧
      turn.scheduler.afterglow.height = Game.height := by
  have hsize := (h.reachable.runBurst cycles).size_vram
  rw [← h.width, ← h.height] at hsize
  obtain ⟨turn, hturn⟩ :=
    settle_of_size (s := s.ran cycles) hsize (s.board.runBurst cycles).1.state 0
  obtain ⟨hwidth, hheight⟩ := settle_extent hturn
  exact ⟨turn, hturn, settle_board (s.quiet_ran cycles) hturn, hwidth.trans h.width,
    hheight.trans h.height⟩

/-- Neither does a step. -/
theorem Aligned.step_ok (h : s.Aligned settings) (start finish : Nat) :
    ∃ turn, s.step start finish = .ok turn ∧ s.leap settings.burst = .ok turn.plain := by
  obtain ⟨turn, hturn, -⟩ := h.leap_ok settings.burst
  have hstep := h.map_step start finish
  rw [hturn] at hstep
  cases hs : s.step start finish with
  | error fault =>
    rw [hs] at hstep
    cases hstep
  | ok turn' =>
    rw [hs] at hstep
    exact ⟨turn', rfl, hturn.trans hstep.symm⟩

/-- A leap that goes on has not reached the next redraw. -/
theorem leap_proceed {cycles : Nat} (h : s.leap cycles = .ok turn)
    (hproceed : turn.outcome = .proceed) :
    turn.scheduler.board.cycle = s.board.cycle + cycles ∧
    turn.scheduler.redraw = s.redraw ∧ s.board.cycle + cycles < s.redraw.deadline := by
  cases settle_ok h with
  | ended => cases hproceed
  | yield => cases hproceed
  | proceed glow pace hstate hglow hphase =>
    have hdue : ¬s.redraw.isDue (Board.cycle (s.ran cycles).board) = true := by
      intro hdue
      exact hphase (if_pos hdue)
    refine ⟨cycle_ran hstate, if_neg hdue, ?_⟩
    rw [cycle_ran hstate] at hdue
    exact Nat.lt_of_not_le (mt decide_eq_true hdue)

/-- A leap that reaches no deadline goes on, with nothing but the board changed. -/
theorem Aligned.leap_before (h : s.Aligned settings) {cycles : Nat}
    (hstate : (s.board.runBurst cycles).1.state.isTerminal = false)
    (hbefore : ∀ task, s.board.cycle + cycles < (s.timer task).deadline) :
    s.leap cycles = .ok { outcome := .proceed, pace := none, scheduler := s.ran cycles } := by
  have hdue (task : Task) : (s.timer task).isDue (Board.cycle (s.ran cycles).board) = false := by
    rw [cycle_ran hstate]
    exact decide_eq_false (Nat.not_le_of_lt (hbefore task))
  exact settle_of_not_due (s := s.ran cycles) hstate h.running (hdue .sampling) (hdue .redraw) 0

/-- A leap from where another one went on is the two leaps together. -/
theorem leap_add {t : Scheduler DemoBoard} {a : Nat}
    (ht : t.plain = s.ran a) (b : Nat) : t.leap b = s.leap (a + b) := by
  have hboard : t.board = (s.board.runBurst a).2 := (congrArg Scheduler.board ht :)
  unfold leap ran
  rw [DemoBoard.runBurst_add, ht, hboard]
  rfl

theorem leap_add_of_isTerminal {a : Nat} (hstate : (s.board.runBurst a).1.state.isTerminal = true)
    (b : Nat) : s.leap (a + b) = s.leap a := by
  unfold leap ran
  rw [DemoBoard.runBurst_of_isTerminal hstate]

/-- A leap in which the program finishes ends. -/
theorem leap_of_isTerminal {cycles : Nat}
    (hstate : (s.board.runBurst cycles).1.state.isTerminal = true) (h : s.leap cycles = .ok turn) :
    ∃ state, turn.outcome = .ended state := by
  rw [leap, settle_of_isTerminal hstate] at h
  cases h
  exact ⟨_, rfl⟩

/-- Unless it ends, a step takes the board a burst further, and preserves the invariant. -/
theorem Aligned.step (h : s.Aligned settings) (hstep : s.step start finish = .ok turn)
    (hends : ∀ state, turn.outcome ≠ .ended state) :
    turn.scheduler.board.cycle = s.board.cycle + settings.burst ∧
    turn.scheduler.Aligned settings := by
  obtain ⟨turn', hturn', hleap⟩ := h.step_ok start finish
  obtain rfl : turn = turn' := Except.ok.inj (hstep.symm.trans hturn')
  obtain ⟨leapt, hleapt, hboard, hwidth, hheight⟩ := h.leap_ok settings.burst
  obtain rfl : turn.plain = leapt := Except.ok.inj (hleap.symm.trans hleapt)
  have hcycle : turn.scheduler.board.cycle = s.board.cycle + settings.burst := by
    cases hstate : (s.board.runBurst settings.burst).1.state.isTerminal with
    | true =>
      obtain ⟨state, houtcome⟩ := leap_of_isTerminal hstate hleap
      exact absurd houtcome (hends state)
    | false => exact (congrArg DemoBoard.cycle hboard).trans (cycle_ran hstate)
  obtain ⟨-, hsettings, htimer⟩ :=
    step_timer (DemoBoard.steady s.settings.burst).toForward hstep hends
  obtain ⟨hchannel, hinner⟩ := step_channel (by rw [h.running]; nofun) h.inner hstep
  rw [drainInput_of_quiet h.quiet] at hchannel
  refine ⟨hcycle, hsettings.trans h.settings_eq, by rw [hchannel, h.inline], hinner,
    step_running h.running hstep hends, ?_, hwidth, hheight, fun task => ?_, fun task => ?_⟩
  · exact hboard ▸ h.reachable.runBurst settings.burst
  · rw [(htimer task).1, Timer.period_poll, h.period]
  · have hnow : Board.cycle turn.scheduler.board = s.board.cycle + settings.burst := hcycle
    rw [(htimer task).1, hcycle, hnow]
    exact (h.timer task).poll

/-! ## Idling -/

/-- A scheduler that may go on: it has ended, or it is aligned. -/
def Ready (settings : Settings) (s : Scheduler DemoBoard) : Prop :=
  s.Aligned settings ∨ ∃ state, s.phase = .ended state

/-- Idling comes to an outcome, and to a scheduler of which `next` is what is left without its
    bursts, within as many steps as there are cycles until the next redraw. -/
def Reaches (settings : Settings) (s : Scheduler DemoBoard) (outcome : Outcome)
    (next : Scheduler DemoBoard) : Prop :=
  ∀ wall limit, s.redraw.deadline - s.board.cycle ≤ limit →
    ∃ idle, s.idle wall limit = .ok (some idle) ∧ idle.outcome = outcome ∧
      idle.scheduler.plain = next ∧ idle.scheduler.Ready settings

/-- What a leap leads to: idling stops where it ends, or goes on from there. -/
def Leads (settings : Settings) (turn : Turn DemoBoard) (outcome : Outcome)
    (next : Scheduler DemoBoard) : Prop :=
  (turn.outcome ≠ .proceed ∧ outcome = turn.outcome ∧ next = turn.scheduler) ∨
  (turn.outcome = .proceed ∧ ∀ s : Scheduler DemoBoard, s.Aligned settings →
    s.plain = turn.scheduler → s.Reaches settings outcome next)

variable {outcome : Outcome} {next : Scheduler DemoBoard}

/-- Idling comes to what its first step leads to. -/
theorem Aligned.reaches_of_step (h : s.Aligned settings) (hleap : s.leap settings.burst = .ok turn)
    (hleads : Leads settings turn outcome next) : s.Reaches settings outcome next := by
  intro wall limit hlimit
  obtain ⟨turn', hstep, hleap'⟩ := h.step_ok wall wall
  obtain rfl : turn'.plain = turn := Except.ok.inj (hleap'.symm.trans hleap)
  have hahead : s.board.cycle < s.redraw.deadline := (h.timer .redraw).ahead
  obtain ⟨limit, rfl⟩ : ∃ rest, limit = rest + 1 := ⟨limit - 1, by omega⟩
  rcases hleads with ⟨hstop, rfl, rfl⟩ | ⟨hproceed, hnext⟩
  · refine ⟨_, idle_of_stop hstep hstop limit, rfl, rfl, ?_⟩
    cases houtcome : turn'.outcome with
    | proceed => exact absurd houtcome hstop
    | yield => exact .inl (h.step hstep (by rw [houtcome]; nofun)).2
    | ended state => exact .inr ⟨state, step_ended hstep houtcome⟩
  · -- Each step uses up at least one of the cycles that the limit was taken from.
    rw [idle_of_proceed hstep hproceed]
    have hends (state : CpuState) : turn'.outcome ≠ .ended state := by
      intro hended
      cases hproceed.symm.trans hended
    have haligned := (h.step hstep hends).2
    obtain ⟨hcycle, hredraw, -⟩ := leap_proceed hleap hproceed
    have hburst := settings.burst_pos
    refine hnext turn'.scheduler haligned rfl _ limit ?_
    have hdeadline : turn'.scheduler.redraw = s.redraw := hredraw
    have hnow : turn'.scheduler.board.cycle = s.board.cycle + settings.burst := hcycle
    rw [hdeadline, hnow]
    omega

/-- The cycles until the deadline that comes first. -/
def gap (s : Scheduler DemoBoard) : Nat :=
  min s.sampling.deadline s.redraw.deadline - s.board.cycle

theorem Aligned.gap_pos (h : s.Aligned settings) : 0 < s.gap :=
  Nat.sub_pos_of_lt (Nat.lt_min.2 ⟨(h.timer .sampling).ahead, (h.timer .redraw).ahead⟩)

/-- The first deadline comes at the end of a burst. -/
theorem Aligned.dvd_gap (h : s.Aligned settings) : settings.burst ∣ s.gap := by
  have hsampling := (h.timer .sampling).dvd_rest
  have hredraw := (h.timer .redraw).dvd_rest
  rw [gap]
  rcases Nat.le_total s.sampling.deadline s.redraw.deadline with hle | hle
  · rw [Nat.min_eq_left hle]
    exact hsampling
  · rw [Nat.min_eq_right hle]
    exact hredraw

theorem Aligned.exists_gap_eq (h : s.Aligned settings) : ∃ n, s.gap = (n + 1) * settings.burst := by
  obtain ⟨n, hn⟩ := h.dvd_gap
  cases n with
  | zero => exact absurd hn (Nat.ne_of_gt h.gap_pos)
  | succ n => exact ⟨n, hn.trans (Nat.mul_comm ..)⟩

/-- Idling comes to what a leap to the first deadline leads to, in however many bursts. -/
theorem Aligned.reaches_of_leap (h : s.Aligned settings) {n : Nat}
    (hgap : s.gap = (n + 1) * settings.burst) (hleap : s.leap s.gap = .ok turn)
    (hleads : Leads settings turn outcome next) : s.Reaches settings outcome next := by
  induction n generalizing s with
  | zero =>
    rw [hgap, Nat.zero_add, Nat.one_mul] at hleap
    exact h.reaches_of_step hleap hleads
  | succ n ih =>
    have hsplit : s.gap = settings.burst + (n + 1) * settings.burst := by
      rw [hgap, Nat.succ_mul, Nat.add_comm]
    cases hstate : (s.board.runBurst settings.burst).1.state.isTerminal with
    | true =>
      -- The program finishes in the first burst, and the rest of the leap is empty.
      rw [hsplit, leap_add_of_isTerminal hstate] at hleap
      exact h.reaches_of_step hleap hleads
    | false =>
      -- The first burst reaches no deadline, and leaves the rest of the leap to go.
      have hpos : 0 < (n + 1) * settings.burst := Nat.mul_pos n.succ_pos settings.burst_pos
      have hbefore (task : Task) : s.board.cycle + settings.burst < (s.timer task).deadline := by
        rw [gap] at hsplit
        cases task with
        | sampling =>
          change _ < s.sampling.deadline
          omega
        | redraw =>
          change _ < s.redraw.deadline
          omega
      refine h.reaches_of_step (h.leap_before hstate hbefore) (.inr ⟨rfl, fun t ht hplain => ?_⟩)
      have hnext : t.gap = (n + 1) * settings.burst := by
        have hsampling : t.sampling = s.sampling := (congrArg Scheduler.sampling hplain :)
        have hredraw : t.redraw = s.redraw := (congrArg Scheduler.redraw hplain :)
        have hcycle : t.board.cycle = s.board.cycle + settings.burst :=
          (congrArg (fun s : Scheduler DemoBoard => s.board.cycle) hplain).trans (cycle_ran hstate)
        rw [gap] at hsplit ⊢
        rw [hsampling, hredraw, hcycle]
        omega
      refine ih ht hnext ?_
      rw [hnext, leap_add hplain, ← hsplit]
      exact hleap

/-- What idling comes to is a function of what the scheduler is without its bursts. -/
theorem exists_reaches (base : Scheduler DemoBoard) :
    ∃ outcome next, ∀ (settings : Settings) (s : Scheduler DemoBoard), s.Aligned settings →
      s.plain = base → s.Reaches settings outcome next := by
  induction hrest : base.redraw.deadline - base.board.cycle using Nat.strongRecOn
    generalizing base with
  | ind rest ih =>
    by_cases haligned : ∃ (settings : Settings) (s : Scheduler DemoBoard),
        s.Aligned settings ∧ s.plain = base
    · obtain ⟨_, s₀, h₀, rfl⟩ := haligned
      obtain ⟨turn, hleap, -⟩ := h₀.leap_ok s₀.gap
      -- The gap and the leap are those of every scheduler with this base, however long its bursts.
      have hreaches {outcome : Outcome} {next : Scheduler DemoBoard} {settings : Settings}
          {s : Scheduler DemoBoard} (h : s.Aligned settings) (hplain : s.plain = s₀.plain)
          (hleads : Leads settings turn outcome next) : s.Reaches settings outcome next := by
        have hgap : s.gap = s₀.gap := (congrArg gap hplain :)
        have hsame : s.leap s₀.gap = s₀.leap s₀.gap := (congrArg (leap · s₀.gap) hplain :)
        obtain ⟨n, hn⟩ := h.exists_gap_eq
        exact h.reaches_of_leap hn (by rw [hgap, hsame, hleap]) hleads
      by_cases hproceed : turn.outcome = .proceed
      · obtain ⟨hcycle, hredraw, hlt⟩ := leap_proceed hleap hproceed
        have hpos := h₀.gap_pos
        have hrest' : turn.scheduler.redraw.deadline - turn.scheduler.board.cycle < rest := by
          rw [hcycle, hredraw, ← hrest]
          change _ < s₀.redraw.deadline - s₀.board.cycle
          omega
        obtain ⟨outcome, next, hnext⟩ := ih _ hrest' turn.scheduler rfl
        exact ⟨outcome, next, fun settings s h hplain => hreaches h hplain (.inr ⟨hproceed,
          fun t ht htplain => hnext settings t ht htplain⟩)⟩
      · exact ⟨turn.outcome, turn.scheduler, fun settings s h hplain =>
          hreaches h hplain (.inl ⟨hproceed, rfl, rfl⟩)⟩
    · exact ⟨.proceed, base, fun settings s h hplain => absurd ⟨settings, s, h, hplain⟩ haligned⟩

/-! ## Visits -/

theorem phase_inputAll (s : Scheduler DemoBoard) (events : List ButtonEvent) :
    (s.inputAll events).2.phase = s.phase :=
  inputAll_induction (p := fun next => next.phase = s.phase) (fun _ _ h => h) rfl events

theorem Ready.inputAll (h : s.Ready settings) (events : List ButtonEvent) :
    (s.inputAll events).2.Ready settings := by
  rcases h with haligned | ⟨state, hphase⟩
  · exact .inl (haligned.inputAll events)
  · exact .inr ⟨state, (s.phase_inputAll events).trans hphase⟩

section Two

variable {settings₁ settings₂ : Settings} {s₁ s₂ : Scheduler DemoBoard} {limit₁ limit₂ : Nat}

/-- Two schedulers that are the same but for their bursts idle alike. -/
theorem idle_agree (hplain : s₁.plain = s₂.plain) (h₁ : s₁.Ready settings₁)
    (h₂ : s₂.Ready settings₂) (hlimit₁ : settings₁.redrawPeriod ≤ limit₁)
    (hlimit₂ : settings₂.redrawPeriod ≤ limit₂) (wall₁ wall₂ : Nat) :
    ∃ idle₁ idle₂, s₁.idle wall₁ limit₁ = .ok (some idle₁) ∧
      s₂.idle wall₂ limit₂ = .ok (some idle₂) ∧ idle₁.outcome = idle₂.outcome ∧
      idle₁.scheduler.plain = idle₂.scheduler.plain ∧ idle₁.scheduler.Ready settings₁ ∧
      idle₂.scheduler.Ready settings₂ := by
  have hphase : s₁.phase = s₂.phase := (congrArg Scheduler.phase hplain :)
  rcases h₁ with haligned₁ | ⟨state, hended₁⟩
  · have haligned₂ : s₂.Aligned settings₂ := by
      rcases h₂ with haligned₂ | ⟨state, hended₂⟩
      · exact haligned₂
      · rw [haligned₁.running, hended₂] at hphase
        cases hphase
    obtain ⟨outcome, next, hreaches⟩ := exists_reaches s₁.plain
    obtain ⟨idle₁, hidle₁, houtcome₁, hnext₁, hready₁⟩ := hreaches settings₁ s₁ haligned₁ rfl wall₁
      limit₁ (Nat.le_trans haligned₁.rest_le hlimit₁)
    obtain ⟨idle₂, hidle₂, houtcome₂, hnext₂, hready₂⟩ := hreaches settings₂ s₂ haligned₂
      hplain.symm wall₂ limit₂ (Nat.le_trans haligned₂.rest_le hlimit₂)
    exact ⟨idle₁, idle₂, hidle₁, hidle₂, houtcome₁.trans houtcome₂.symm, hnext₁.trans hnext₂.symm,
      hready₁, hready₂⟩
  · have hended₂ : s₂.phase = .ended state := hphase.symm.trans hended₁
    have hpos₁ := settings₁.redrawPeriod_pos
    have hpos₂ := settings₂.redrawPeriod_pos
    obtain ⟨limit₁, rfl⟩ : ∃ rest, limit₁ = rest + 1 := ⟨limit₁ - 1, by omega⟩
    obtain ⟨limit₂, rfl⟩ : ∃ rest, limit₂ = rest + 1 := ⟨limit₂ - 1, by omega⟩
    exact ⟨_, _, idle_of_ended hended₁ wall₁ limit₁, idle_of_ended hended₂ wall₂ limit₂, rfl,
      hplain, .inr ⟨state, hended₁⟩, .inr ⟨state, hended₂⟩⟩

/-- What came of a visit, to a scheduler and to another that is the same but for its bursts. -/
structure SameVisit (x y : List Notice × Idle DemoBoard) : Prop where
  notices : x.1 = y.1
  outcome : x.2.outcome = y.2.outcome
  scheduler : x.2.scheduler.Agree y.2.scheduler

/-- Two schedulers that are the same but for their bursts are visited alike. -/
theorem idleRun_agree_of_plain_eq (hplain : s₁.plain = s₂.plain) (h₁ : s₁.Ready settings₁)
    (h₂ : s₂.Ready settings₂) (hlimit₁ : settings₁.redrawPeriod ≤ limit₁)
    (hlimit₂ : settings₂.redrawPeriod ≤ limit₂) {visits₁ visits₂ : List Visit}
    (hreports : visits₁.map Visit.reports = visits₂.map Visit.reports) :
    ∃ run₁ run₂, s₁.idleRun limit₁ visits₁ = .ok (some run₁) ∧
      s₂.idleRun limit₂ visits₂ = .ok (some run₂) ∧ run₁.length = visits₁.length ∧
      List.Forall₂ SameVisit run₁ run₂ := by
  induction visits₁ generalizing s₁ s₂ visits₂ with
  | nil =>
    obtain rfl : visits₂ = [] := List.map_eq_nil_iff.1 hreports.symm
    exact ⟨[], [], rfl, rfl, rfl, .nil⟩
  | cons visit₁ visits₁ ih =>
    obtain ⟨⟨reports, wall₂⟩, visits₂, rfl, hvisit, hvisits⟩ := List.map_eq_cons_iff.1 hreports.symm
    obtain rfl : reports = visit₁.reports := hvisit
    have hinput : (s₁.inputAll visit₁.reports).1 = (s₂.inputAll visit₁.reports).1 ∧
        (s₁.inputAll visit₁.reports).2.plain = (s₂.inputAll visit₁.reports).2.plain := by
      have hinput₁ := s₁.inputAll_plain visit₁.reports
      rw [hplain, s₂.inputAll_plain] at hinput₁
      exact Prod.mk.inj hinput₁.symm
    obtain ⟨hnotices, hplain⟩ := hinput
    obtain ⟨idle₁, idle₂, hidle₁, hidle₂, houtcome, hnext, hready₁, hready₂⟩ :=
      idle_agree hplain (h₁.inputAll visit₁.reports) (h₂.inputAll visit₁.reports) hlimit₁ hlimit₂
        visit₁.wall wall₂
    obtain ⟨run₁, run₂, hrun₁, hrun₂, hlength, hagree⟩ := ih hnext hready₁ hready₂ hvisits.symm
    refine ⟨((s₁.inputAll visit₁.reports).1, idle₁) :: run₁,
      ((s₂.inputAll visit₁.reports).1, idle₂) :: run₂, ?_, ?_, ?_, ?_⟩
    · simp only [idleRun, bind, Except.bind, hidle₁, hrun₁]
      rfl
    · simp only [idleRun, bind, Except.bind, hidle₂, hrun₂]
      rfl
    · rw [List.length_cons, List.length_cons, hlength]
    · exact .cons ⟨hnotices, houtcome, agree_of_plain_eq hnext⟩ hagree

end Two

/-! ## A new scheduler -/

/-- The timers of a new scheduler are aligned if their periods are whole numbers of bursts. -/
theorem aligned_new {board : DemoBoard} (hboard : board.Reachable)
    (hnew : Scheduler.new board (.ofStrategy .inline) settings = .ok s)
    (hdvd : ∀ task, settings.burst ∣ settings.period task) : s.Aligned settings := by
  obtain ⟨-, rfl⟩ := new_ok hnew
  have hcycle : (({} : Lines).pullUp board).cycle = board.cycle :=
    Lines.cycle_pullUp (DemoBoard.steady 0).still {} board
  have hreachable : (({} : Lines).pullUp board).Reachable :=
    Lines.pullUp_induction (fun _ _ _ h => h.drive ..) {} hboard
  refine ⟨rfl, rfl, rfl, rfl, hreachable, rfl, rfl, fun task => ?_, fun task => ?_⟩
  · cases task <;> rfl
  · change Timer.Aligned _ _ (({} : Lines).pullUp board).cycle
    rw [hcycle]
    cases task with
    | sampling => exact Timer.aligned_start _ _ _ _ (hdvd .sampling)
    | redraw => exact Timer.aligned_start _ _ _ _ (hdvd .redraw)

/-- The length of a burst does not show. Over one demo board let two schedulers have settings that
    differ in the length of a burst only, of which both periods are multiples. However often and
    whatever input is reported before they idle, both always come to the next frame or the end
    within a redraw period, and each time the two agree, on what came of the reports and on all but
    the number of bursts. -/
theorem idleRun_agree {board : DemoBoard} (hboard : board.Reachable) {settings : Settings}
    {burst₁ burst₂ : Nat} (hpos₁ : 0 < burst₁) (hpos₂ : 0 < burst₂)
    (hdvd₁ : burst₁ ∣ settings.samplingPeriod ∧ burst₁ ∣ settings.redrawPeriod)
    (hdvd₂ : burst₂ ∣ settings.samplingPeriod ∧ burst₂ ∣ settings.redrawPeriod)
    {s₁ s₂ : Scheduler DemoBoard}
    (hs₁ : Scheduler.new board (.ofStrategy .inline) (settings.withBurst burst₁ hpos₁) = .ok s₁)
    (hs₂ : Scheduler.new board (.ofStrategy .inline) (settings.withBurst burst₂ hpos₂) = .ok s₂)
    {limit₁ limit₂ : Nat} (hlimit₁ : settings.redrawPeriod ≤ limit₁)
    (hlimit₂ : settings.redrawPeriod ≤ limit₂) {visits₁ visits₂ : List Visit}
    (hreports : visits₁.map Visit.reports = visits₂.map Visit.reports) :
    ∃ run₁ run₂, s₁.idleRun limit₁ visits₁ = .ok (some run₁) ∧
      s₂.idleRun limit₂ visits₂ = .ok (some run₂) ∧ run₁.length = visits₁.length ∧
      List.Forall₂ SameVisit run₁ run₂ := by
  have haligned₁ : s₁.Aligned (settings.withBurst burst₁ hpos₁) := by
    refine aligned_new hboard hs₁ fun task => ?_
    cases task with
    | sampling => exact hdvd₁.1
    | redraw => exact hdvd₁.2
  have haligned₂ : s₂.Aligned (settings.withBurst burst₂ hpos₂) := by
    refine aligned_new hboard hs₂ fun task => ?_
    cases task with
    | sampling => exact hdvd₂.1
    | redraw => exact hdvd₂.2
  have hplain : s₁.plain = s₂.plain := by
    obtain ⟨-, rfl⟩ := new_ok hs₁
    obtain ⟨-, rfl⟩ := new_ok hs₂
    rfl
  exact idleRun_agree_of_plain_eq hplain (.inl haligned₁) (.inl haligned₂) hlimit₁ hlimit₂ hreports

/-- Bursts of a hundredth and of a whole sampling period, with a tap of a button before the second
    frame. -/
theorem idleRun_agree_tap :
    ∃ settings s₁ s₂, Settings.ofMicros 16000000 1600 1000 16000 = .ok settings ∧
      Scheduler.new (DemoBoard.start 16000000) (.ofStrategy .inline)
        (settings.withBurst 160 (by decide)) = .ok s₁ ∧
      Scheduler.new (DemoBoard.start 16000000) (.ofStrategy .inline)
        (settings.withBurst 16000 (by decide)) = .ok s₂ ∧
      ∃ run₁ run₂,
        s₁.idleRun 256000 [⟨[], 0⟩, ⟨[⟨.a, true⟩, ⟨.a, false⟩], 5⟩] = .ok (some run₁) ∧
        s₂.idleRun 300000 [⟨[], 7⟩, ⟨[⟨.a, true⟩, ⟨.a, false⟩], 9⟩] = .ok (some run₂) ∧
        run₁.length = 2 ∧ List.Forall₂ SameVisit run₁ run₂ := by
  obtain ⟨settings, s₁, s₂, hsettings, hsampling, hredraw, hs₁, hs₂⟩ : ∃ settings s₁ s₂,
      Settings.ofMicros 16000000 1600 1000 16000 = .ok settings ∧
      settings.samplingPeriod = 16000 ∧ settings.redrawPeriod = 256000 ∧
      Scheduler.new (DemoBoard.start 16000000) (.ofStrategy .inline)
        (settings.withBurst 160 (by decide)) = .ok s₁ ∧
      Scheduler.new (DemoBoard.start 16000000) (.ofStrategy .inline)
        (settings.withBurst 16000 (by decide)) = .ok s₂ := ⟨_, _, _, rfl, rfl, rfl, rfl, rfl⟩
  have hdvd₁ : 160 ∣ settings.samplingPeriod ∧ 160 ∣ settings.redrawPeriod := by
    rw [hsampling, hredraw]
    decide
  have hdvd₂ : 16000 ∣ settings.samplingPeriod ∧ 16000 ∣ settings.redrawPeriod := by
    rw [hsampling, hredraw]
    decide
  exact ⟨settings, s₁, s₂, hsettings, hs₁, hs₂, idleRun_agree (.start 16000000) _ _ hdvd₁ hdvd₂ hs₁
    hs₂ (Nat.le_of_eq hredraw) (by rw [hredraw]; decide) rfl⟩

end Scheduler

end Handheld
