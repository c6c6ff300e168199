import Handheld.Board.Logged
import Handheld.Proofs.Independence
import Handheld.Proofs.Pictures

/-!
# Time on the wall

A throttled scheduler sleeps whenever simulated time has got ahead of the wall. The wall may be any
clock that never goes back: a burst may take any time, and a sleep may take longer than it was asked
to. All that this does to a run is to delay it.

* `Scheduler.Paced`: a run along such a wall, with the readings at which its steps began. The epoch
  is the first of them (`Paced.epoch_eq`), and idling on the wall of its own is one such run
  (`Paced.idle`).
* `Scheduler.Held`: how a step that was held back stands to the wall. It sleeps off its lead and no
  more, so that simulated time is never ahead of the wall when the step is over.
* `Scheduler.callAll`: what comes of a list of calls. It is the same whatever the clock reads and
  whether it is looked at (`callAll_untimed`), since this is so of every step (`step_untimed`).
-/

namespace Handheld

/-! ## Leads and lags -/

namespace Clock

variable {clock : Clock} {epoch cycle now later : Nat}

theorem nanosOfCycles_le (clock : Clock) (cycle : Nat) : clock.nanosOfCycles cycle ≤ wordMax :=
  Nat.min_le_right ..

theorem pace_of_lt (h : now - epoch < clock.nanosOfCycles cycle) :
    clock.pace epoch cycle now = .slept (clock.nanosOfCycles cycle - (now - epoch)) := by
  have hmax := clock.nanosOfCycles_le cycle
  rw [pace, Pace.residual, Nat.min_eq_left (by omega), if_neg (Nat.not_le_of_lt h)]

theorem pace_of_le (h : clock.nanosOfCycles cycle ≤ now - epoch) :
    clock.pace epoch cycle now =
      .behind (min (now - epoch) wordMax - clock.nanosOfCycles cycle) := by
  rw [pace, Pace.residual, if_pos (Nat.le_min.2 ⟨h, clock.nanosOfCycles_le cycle⟩)]

/-- Once a lead is slept off, the wall has caught up with the cycle. -/
theorem le_of_pace (hepoch : epoch ≤ now)
    (hlater : now + (clock.pace epoch cycle now).nanos ≤ later) :
    clock.nanosOfCycles cycle ≤ later - epoch := by
  have := Pace.le_add_nanos_residual (clock.nanosOfCycles cycle) (min (now - epoch) wordMax)
  rw [pace] at hlater
  omega

end Clock

theorem Turn.slept_of_pace {σ : Type} {turn : Turn σ} {pace : Pace} (h : turn.pace = some pace) :
    turn.slept = pace.nanos := by
  rw [slept, h, Option.map_some, Option.getD_some]

namespace Scheduler

variable {σ : Type} [Board σ] {s first : Scheduler σ} {origin wall start finish : Nat}
  {starts : List Nat} {state : CpuState} {turn : Turn σ}

/-! ## Runs along a wall -/

/-- The schedulers that come of `first` along a wall that read `origin` at first, with the readings
    at which steps were begun that had something to do, and a time by which all that was over. -/
inductive Paced (first : Scheduler σ) (origin : Nat) : List Nat → Nat → Scheduler σ → Prop
  | start : Paced first origin [] origin first
  /-- The clock is read when the step begins and when its burst is over; then the step sleeps, for
      as long as it asks to or longer. -/
  | step {starts : List Nat} {wall start finish later : Nat} {s : Scheduler σ} {turn : Turn σ} :
    Paced first origin starts wall s → (∀ state, s.phase ≠ .ended state) → wall ≤ start →
    start ≤ finish → s.step start finish = .ok turn → finish + turn.slept ≤ later →
    Paced first origin (starts ++ [start]) later turn.scheduler
  /-- A scheduler that has ended does not read the clock. -/
  | rest {starts : List Nat} {wall start finish later : Nat} {s : Scheduler σ} {turn : Turn σ}
    {state : CpuState} :
    Paced first origin starts wall s → s.phase = .ended state → s.step start finish = .ok turn →
    wall ≤ later → Paced first origin starts later turn.scheduler
  | input {starts : List Nat} {wall : Nat} {s : Scheduler σ} (event : ButtonEvent) :
    Paced first origin starts wall s → Paced first origin starts wall (s.input event).2
  | send {starts : List Nat} {wall : Nat} {s : Scheduler σ} (sender : Sender)
    (event : ButtonEvent) :
    Paced first origin starts wall s → Paced first origin starts wall (s.send sender event).2.2

/-- The second half of a step leaves the epoch as it is. -/
theorem settle_epoch {now : Nat} (h : s.settle state now = .ok turn) :
    turn.scheduler.epoch = s.epoch := by
  rcases settle_ok h with - | - | -
  · rfl
  · rfl
  · rfl

/-- A step that has something to do pins the epoch, unless that was done before. -/
theorem step_epoch (hphase : ∀ state, s.phase ≠ .ended state)
    (h : s.step start finish = .ok turn) :
    turn.scheduler.epoch =
      if s.settings.throttle && s.epoch.isNone then some start else s.epoch := by
  rcases step_ok h with ⟨state, hended, -⟩ | ⟨-, state, s₁, hlaunch, hsettle⟩
  · exact absurd hended (hphase state)
  · rw [settle_epoch hsettle, ← epoch_pinEpoch]
    obtain ⟨_, _, _, _, -, -, rfl⟩ := launch_ok hlaunch
    rfl

theorem Paced.settings_eq (h : Paced first origin starts wall s) :
    s.settings = first.settings := by
  induction h with
  | start => rfl
  | step _ _ _ _ hstep _ ih => exact (step_settings hstep).trans ih
  | rest _ _ hstep _ ih => exact (step_settings hstep).trans ih
  | input _ _ ih => exact ih
  | send _ _ _ ih => exact ih

/-- The epoch is the reading at which the first step began that had something to do. -/
theorem Paced.epoch_eq (h : Paced first origin starts wall s) (hfirst : first.epoch = none) :
    s.epoch = if first.settings.throttle then starts.head? else none := by
  induction h with
  | start =>
    rw [hfirst, List.head?_nil, ite_self]
  | @step starts _ start _ _ _ _ hs hphase _ _ hstep _ ih =>
    rw [step_epoch hphase hstep, hs.settings_eq, ih]
    cases first.settings.throttle with
    | false => rfl
    | true =>
      -- Whatever is added to the readings, the first of them stays the first.
      rcases starts with - | ⟨first, rest⟩
      · rfl
      · rfl
  | rest _ hended hstep _ ih =>
    rw [step_of_ended hended] at hstep
    cases hstep
    exact ih
  | input _ _ ih => exact ih
  | send _ _ _ ih => exact ih

/-- All steps began before the present. -/
theorem Paced.le_wall (h : Paced first origin starts wall s) : ∀ start ∈ starts, start ≤ wall := by
  induction h with
  | start => nofun
  | step _ _ hstart hfinish _ hlater ih =>
    intro start hmem
    rcases List.mem_append.1 hmem with hold | hnew
    · have := ih start hold
      omega
    · rw [List.mem_singleton.1 hnew]
      omega
  | rest _ _ _ hlater ih => exact fun start hmem => Nat.le_trans (ih start hmem) hlater
  | input _ _ ih => exact ih
  | send _ _ _ ih => exact ih

/-- To idle, on a wall on which computing takes no time, is to run along that wall. -/
theorem Paced.idle {limit : Nat} {idle : Idle σ} (h : Paced first origin starts wall s)
    (hidle : s.idle wall limit = .ok (some idle)) :
    ∃ more, Paced first origin (starts ++ more) idle.wall idle.scheduler := by
  induction limit generalizing s wall starts with
  | zero => cases hidle
  | succ limit ih =>
    rcases hstep : s.step wall wall with fault | turn
    · rw [Scheduler.idle, hstep] at hidle
      cases hidle
    · obtain ⟨more, hnext⟩ : ∃ more,
          Paced first origin (starts ++ more) (wall + turn.slept) turn.scheduler := by
        by_cases hended : ∃ state, s.phase = .ended state
        · -- There is nothing to do, and the clock is not read.
          obtain ⟨state, hended⟩ := hended
          refine ⟨[], ?_⟩
          rw [List.append_nil]
          exact h.rest hended hstep (Nat.le_add_right ..)
        · exact ⟨[wall], h.step (not_exists.1 hended) (Nat.le_refl _) (Nat.le_refl _) hstep
            (Nat.le_refl _)⟩
      by_cases hproceed : turn.outcome = .proceed
      · rw [idle_of_proceed hstep hproceed] at hidle
        obtain ⟨rest, hrest⟩ := ih hnext hidle
        exact ⟨more ++ rest, List.append_assoc starts more rest ▸ hrest⟩
      · rw [idle_of_stop hstep hproceed] at hidle
        cases hidle
        exact ⟨more, hnext⟩

/-! ## One step -/

/-- How a step of `s` that was held back stands to the wall. It was begun at `start`, and when its
    burst was over, at `finish`, the cycle counter stood at `cycle`; cycle zero is pinned to
    `epoch`. -/
structure Held (s : Scheduler σ) (start finish : Nat) (turn : Turn σ) (epoch cycle : Nat) :
    Prop where
  pinned : turn.scheduler.epoch = some epoch
  burst : ∃ state launched, s.launch start = .ok (state, launched) ∧
    Board.cycle launched.board = cycle
  /-- The counter stands there still when the step is over, unless a frame is published and the
      input that is taken to the pins before it moves the counter. -/
  settled : turn.outcome = .proceed ∨ Board.Still σ →
    Board.cycle turn.scheduler.board = cycle
  /-- A lead is slept off. -/
  ahead : finish - epoch < s.settings.clock.nanosOfCycles cycle → turn.pace =
    some (.slept (s.settings.clock.nanosOfCycles cycle - (finish - epoch)))
  /-- Otherwise there is nothing to sleep off. -/
  behind : s.settings.clock.nanosOfCycles cycle ≤ finish - epoch →
    ∃ lag, turn.pace = some (.behind lag)
  /-- From the end of the step on simulated time is not ahead of the wall. -/
  caught : ∀ later, finish + turn.slept ≤ later →
    s.settings.clock.nanosOfCycles cycle ≤ later - epoch

/-- A step that does not end had something to do. -/
theorem phase_of_outcome (h : s.step start finish = .ok turn)
    (hends : ∀ last, turn.outcome ≠ .ended last) (state : CpuState) : s.phase ≠ .ended state := by
  intro hended
  rw [step_of_ended hended] at h
  cases h
  exact hends state rfl

/-- What the second half of a step says of the wall, unless the program has ended. -/
theorem settle_pace {now : Nat} (h : s.settle state now = .ok turn)
    (hends : ∀ last, turn.outcome ≠ .ended last) :
    turn.pace =
      s.epoch.map fun epoch => s.settings.clock.pace epoch (Board.cycle s.board) now := by
  rcases hstate : state.isTerminal with - | -
  · rw [settle_eq hstate] at h
    rcases hglow : s.nextGlow (Board.cycle s.board) with fault | glow
    · rw [hglow] at h
      cases h
    · rw [hglow] at h
      simp only [Except.map, Except.ok.injEq] at h
      rw [← h]
      split
      · rfl
      · rfl
  · rw [settle_of_isTerminal hstate] at h
    cases h
    exact absurd rfl (hends state)

/-- No pin is driven by a second half after which a step just goes on. -/
theorem settle_board_of_proceed {now : Nat} (h : s.settle state now = .ok turn)
    (hproceed : turn.outcome = .proceed) : turn.scheduler.board = s.board := by
  cases settle_ok h with
  | ended => cases hproceed
  | yield => cases hproceed
  | proceed => rfl

/-- A step that ends does not look at the wall. -/
theorem step_pace_of_ended (h : s.step start finish = .ok turn) {last : CpuState}
    (hlast : turn.outcome = .ended last) : turn.pace = none := by
  rcases step_ok h with ⟨state, -, rfl⟩ | ⟨-, state, s₁, -, hsettle⟩
  · rfl
  · cases settle_ok hsettle with
    | ended => rfl
    | yield => cases hlast
    | proceed => cases hlast

/-- A step looks at the wall if there is an epoch. -/
theorem step_pace (h : s.step start finish = .ok turn)
    (hends : ∀ last, turn.outcome ≠ .ended last) :
    ∃ state launched, s.launch start = .ok (state, launched) ∧
      launched.settle state finish = .ok turn ∧ turn.pace =
        turn.scheduler.epoch.map fun epoch =>
          s.settings.clock.pace epoch (Board.cycle launched.board) finish := by
  rcases step_ok h with ⟨state, -, rfl⟩ | ⟨-, state, s₁, hlaunch, hsettle⟩
  · exact absurd rfl (hends state)
  · refine ⟨state, s₁, hlaunch, hsettle, ?_⟩
    have hsettings : s₁.settings = s.settings := by
      obtain ⟨_, _, _, _, -, -, rfl⟩ := launch_ok hlaunch
      rfl
    rw [settle_pace hsettle hends, settle_epoch hsettle, hsettings]

/-- Without a throttle there is no epoch, and a step does not look at the wall. -/
theorem step_pace_of_unthrottled (hthrottle : s.settings.throttle = false) (hepoch : s.epoch = none)
    (h : s.step start finish = .ok turn) : turn.pace = none := by
  by_cases hended : ∃ last, turn.outcome = .ended last
  · obtain ⟨last, hlast⟩ := hended
    exact step_pace_of_ended h hlast
  · obtain ⟨_, _, -, -, hpace⟩ := step_pace h (not_exists.1 hended)
    rw [hpace, step_epoch (phase_of_outcome h (not_exists.1 hended)) h, hthrottle, hepoch]
    rfl

/-- A step of a throttled scheduler that does not end is held back. -/
theorem held_of_step (hthrottle : s.settings.throttle = true)
    (hwall : ∀ epoch, s.epoch = some epoch → epoch ≤ start) (hfinish : start ≤ finish)
    (h : s.step start finish = .ok turn) (hends : ∀ last, turn.outcome ≠ .ended last) :
    ∃ epoch cycle, s.Held start finish turn epoch cycle := by
  -- The epoch is the reading of this very step, or an earlier one.
  obtain ⟨epoch, hepoch, hle⟩ : ∃ epoch, turn.scheduler.epoch = some epoch ∧ epoch ≤ start := by
    rw [step_epoch (phase_of_outcome h hends) h, hthrottle]
    rcases hpinned : s.epoch with - | epoch
    · exact ⟨start, rfl, Nat.le_refl _⟩
    · exact ⟨epoch, rfl, hwall epoch hpinned⟩
  obtain ⟨state, launched, hlaunch, hsettle, hpace⟩ := step_pace h hends
  rw [hepoch, Option.map_some] at hpace
  refine ⟨epoch, Board.cycle launched.board, ?_⟩
  exact {
    pinned := hepoch
    burst := ⟨state, launched, hlaunch, rfl⟩
    settled := by
      rintro (hproceed | still)
      · exact congrArg Board.cycle (settle_board_of_proceed hsettle hproceed)
      · exact cycle_settle still hsettle
    ahead := fun hlt => hpace.trans (congrArg some (Clock.pace_of_lt hlt))
    behind := fun hle => ⟨_, hpace.trans (congrArg some (Clock.pace_of_le hle))⟩
    caught := fun later hlater => by
      rw [Turn.slept_of_pace hpace] at hlater
      exact Clock.le_of_pace (Nat.le_trans hle hfinish) hlater }

/-! ## Whatever the clock reads -/

/-- What is asked, without the readings of the clock. -/
def Call.untimed : Call → Call
  | .step _ _ => .step 0 0
  | .idle _ limit => .idle 0 limit
  | .input event => .input event
  | .send sender event => .send sender event

omit [Board σ] in
/-- What came of a call, without what it knows of the wall. -/
def Called.untimed (called : Called σ) : Called σ :=
  { called with scheduler := called.scheduler.untimed }

/-- Where a run of steps has come to, without what it knows of the wall. -/
def Idle.untimed (idle : Idle σ) : Idle σ :=
  { idle with scheduler := idle.scheduler.untimed, wall := 0 }

/-- What comes of a list of calls, one after the other, up to the first that does not come back. -/
def callAll (s : Scheduler σ) : List Call → List (Except Fault (Option (Called σ)))
  | [] => []
  | call :: calls =>
    s.call call ::
      match s.call call with
      | .ok (some called) => called.scheduler.callAll calls
      | _ => []

theorem idle_untimed (s : Scheduler σ) (wall limit : Nat) :
    s.untimed.idle 0 limit = (s.idle wall limit).map (Option.map Idle.untimed) := by
  induction limit generalizing s wall with
  | zero => rfl
  | succ limit ih =>
    have huntimed := s.step_untimed wall wall 0 0
    rcases hstep : s.step wall wall with fault | turn
    · rw [hstep] at huntimed
      rw [Scheduler.idle, Scheduler.idle, huntimed, hstep]
      rfl
    · rw [hstep] at huntimed
      by_cases hproceed : turn.outcome = .proceed
      · rw [idle_of_proceed hstep hproceed, idle_of_proceed huntimed hproceed, ← ih]
        rfl
      · rw [idle_of_stop hstep hproceed, idle_of_stop huntimed hproceed]
        rfl

theorem sampled_untimed (s : Scheduler σ) (now now' : Nat) :
    s.untimed.sampled now' = s.sampled now := by
  have hphase : s.untimed.phase = s.phase := rfl
  rw [sampled, sampled, hphase, launch_untimed s now now']
  split
  · rfl
  · rcases s.launch now with fault | launched
    · rfl
    · rfl

theorem idleSampled_untimed (s : Scheduler σ) (wall limit : Nat) :
    s.untimed.idleSampled 0 limit = s.idleSampled wall limit := by
  induction limit generalizing s wall with
  | zero => rfl
  | succ limit ih =>
    rw [idleSampled, idleSampled, sampled_untimed s wall 0, step_untimed s wall wall 0 0]
    rcases s.step wall wall with fault | turn
    · rfl
    · simp only [Except.map]
      rw [← ih turn.scheduler (wall + turn.slept)]
      rfl

theorem call_untimed (s : Scheduler σ) (call : Call) :
    s.untimed.call call.untimed = (s.call call).map (Option.map Called.untimed) := by
  rcases call with ⟨start, finish⟩ | ⟨wall, limit⟩ | event | ⟨sender, event⟩
  · rw [Call.untimed, Scheduler.call, Scheduler.call, step_untimed s start finish,
      sampled_untimed s start]
    rcases s.step start finish with fault | turn
    · rfl
    · rfl
  · rw [Call.untimed, Scheduler.call, Scheduler.call, idle_untimed s wall,
      idleSampled_untimed s wall]
    rcases s.idle wall limit with fault | - | idle
    · rfl
    · rfl
    · rfl
  · have hinput : s.untimed.input event = ((s.input event).1, (s.input event).2.untimed) :=
      input_map event rfl rfl fun _ _ => rfl
    rw [Call.untimed, Scheduler.call, Scheduler.call, hinput]
    rfl
  · rfl

/-- The wall has no influence on what comes of any number of calls. -/
theorem callAll_untimed (s : Scheduler σ) (calls : List Call) :
    s.untimed.callAll (calls.map Call.untimed) =
      (s.callAll calls).map (Except.map (Option.map Called.untimed)) := by
  induction calls generalizing s with
  | nil => rfl
  | cons call calls ih =>
    rw [List.map_cons, callAll, callAll, call_untimed, List.map_cons]
    -- A call that does not come back is the last one on both sides.
    rcases s.call call with fault | - | called
    · rfl
    · rfl
    · exact congrArg (List.cons _) (ih called.scheduler)

/-- With another setting of the throttle a scheduler is made as before. -/
theorem new_throttle {board : σ} {channel : Channel} {settings : Settings} {made : Scheduler σ}
    (hnew : Scheduler.new board channel settings = .ok made) (throttle : Bool) :
    Scheduler.new board channel { settings with throttle } =
      .ok { made with settings.throttle := throttle } := by
  obtain ⟨hfrequency, rfl⟩ := new_ok hnew
  exact if_pos hfrequency

/-- Pacing only delays. Let a scheduler be made for a board whose pin writes are noted, and let the
    wall be any clock that never goes back. At every moment of a run along it the epoch is the
    reading at which the first step began that had something to do, if the scheduler is throttled,
    and there is none otherwise. A step that ends, or is not throttled, does not sleep. Any other
    sleeps off its lead, if it has one, and when it is over the cycles run do not take longer than
    the time since the epoch. Throttled or not, and whatever the clock reads, what comes of any
    number of calls is the same but for the epoch: what they end with, what they sample, and the
    scheduler, with the board and the pins written on it. -/
theorem wall_delays_only {board : Logged σ} {channel : Channel} {settings : Settings}
    {made : Scheduler (Logged σ)} (hnew : Scheduler.new board channel settings = .ok made)
    (inner : Option Sender) (origin : Nat) :
    (∀ starts wall s, Paced { made with inner } origin starts wall s →
      s.settings = settings ∧ s.epoch = (if settings.throttle then starts.head? else none) ∧
      (∀ limit idle, s.idle wall limit = .ok (some idle) →
        ∃ more, Paced { made with inner } origin (starts ++ more) idle.wall idle.scheduler) ∧
      ∀ start finish turn, wall ≤ start → start ≤ finish → s.step start finish = .ok turn →
        (settings.throttle = false ∨ (∃ state, turn.outcome = .ended state) → turn.pace = none) ∧
        (settings.throttle = true → (∀ state, turn.outcome ≠ .ended state) →
          ∃ epoch cycle, s.Held start finish turn epoch cycle)) ∧
    ∀ throttle, ∃ made', Scheduler.new board channel { settings with throttle } = .ok made' ∧
      ∀ calls calls', calls.map Call.untimed = calls'.map Call.untimed →
        (callAll { made with inner } calls).map (Except.map (Option.map Called.untimed)) =
          (callAll { made' with inner } calls').map (Except.map (Option.map Called.untimed)) := by
  obtain ⟨hmade, hunpinned⟩ : made.settings = settings ∧ made.epoch = none := by
    obtain ⟨-, rfl⟩ := new_ok hnew
    exact ⟨rfl, rfl⟩
  constructor
  · intro starts wall s hpaced
    have hsettings : s.settings = settings := hpaced.settings_eq.trans hmade
    have hepoch := hpaced.epoch_eq hunpinned
    dsimp only at hepoch
    rw [hmade] at hepoch
    refine ⟨hsettings, hepoch, fun limit idle => hpaced.idle,
      fun start finish turn hstart hfinish hstep => ?_⟩
    constructor
    · rintro (hfree | ⟨state, hended⟩)
      · rw [hfree] at hepoch
        exact step_pace_of_unthrottled (hsettings ▸ hfree) hepoch hstep
      · exact step_pace_of_ended hstep hended
    · intro hthrottle hends
      refine held_of_step (hsettings ▸ hthrottle) (fun epoch hpinned => ?_) hfinish hstep hends
      rw [hepoch, hthrottle, if_pos rfl] at hpinned
      exact Nat.le_trans (hpaced.le_wall epoch (List.mem_of_mem_head? hpinned)) hstart
  · intro throttle
    refine ⟨_, new_throttle hnew throttle, fun calls calls' hcalls => ?_⟩
    rw [← callAll_untimed, ← callAll_untimed, hcalls]
    rfl

/-- A step over cycles 100 to 105 of a metronome, in which two nanoseconds pass. At a thousand
    cycles a second the rest of the 105 milliseconds is slept off. Without a throttle the same comes
    of it. -/
theorem wall_delays_only_metronome :
    ∃ made turn,
      Scheduler.new ({ board := { cycle := 100 } } : Logged Metronome) {} Metronome.settings =
        .ok made ∧
      made.step 3 5 = .ok turn ∧ turn.outcome = .proceed ∧ turn.scheduler.epoch = some 3 ∧
      turn.pace = some (.slept (105000000 - (5 - 3))) ∧
      (∀ later, 5 + turn.slept ≤ later → 105000000 ≤ later - 3) ∧
      ∃ made', Scheduler.new ({ board := { cycle := 100 } } : Logged Metronome) {}
          { Metronome.settings with throttle := false } = .ok made' ∧
        (made'.callAll [.step 0 0]).map (Except.map (Option.map Called.untimed)) =
          (made.callAll [.step 3 5]).map (Except.map (Option.map Called.untimed)) := by
  obtain ⟨made, turn, hnew, hstep, hproceed, hepoch, launched, hlaunch, hcycle⟩ : ∃ made turn,
      Scheduler.new ({ board := { cycle := 100 } } : Logged Metronome) {} Metronome.settings =
        .ok made ∧
      made.step 3 5 = .ok turn ∧ turn.outcome = .proceed ∧ turn.scheduler.epoch = some 3 ∧
      ∃ launched, made.launch 3 = .ok (.running, launched) ∧ Board.cycle launched.board = 105 :=
    ⟨_, _, rfl, rfl, rfl, rfl, _, rfl, rfl⟩
  have hnanos : made.settings.clock.nanosOfCycles 105 = 105000000 := by
    obtain ⟨-, rfl⟩ := new_ok hnew
    rfl
  obtain ⟨hpaced, hcalls⟩ := wall_delays_only hnew none 0
  rw [new_inner hnew] at hpaced hcalls
  obtain ⟨-, -, -, hsteps⟩ := hpaced [] 0 made .start
  obtain ⟨epoch, cycle, hheld⟩ := (hsteps 3 5 turn (by decide) (by decide) hstep).2 rfl
    (hproceed ▸ nofun)
  cases hepoch.symm.trans hheld.pinned
  obtain ⟨_, _, hagain, rfl⟩ := hheld.burst
  cases hlaunch.symm.trans hagain
  rw [hcycle] at hheld
  have hahead := hheld.ahead (by rw [hnanos]; decide)
  have hcaught := hheld.caught
  rw [hnanos] at hahead hcaught
  obtain ⟨made', hnew', hsame⟩ := hcalls false
  rw [new_inner hnew'] at hsame
  exact ⟨made, turn, hnew, hstep, hproceed, hepoch, hahead, hcaught, made', hnew',
    (hsame [.step 3 5] [.step 0 0] rfl).symm⟩

end Scheduler

end Handheld
