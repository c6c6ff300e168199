import Handheld.Proofs.Step

/-!
# What a step does not depend on

Three things that a scheduler carries along have no influence on what it simulates.

* The wall. A scheduler that forgets it (`untimed`) takes the same steps, whatever the clock read
  (`step_untimed`).
* The way of delivery. As long as no input waits, a scheduler that forgets its queue (`unqueued`)
  takes the same steps (`step_unqueued`). Input that waits is taken to the pins before anything
  else, so a step of any scheduler is the step of one for which none waits (`step_drainInput`).
* How many bursts it has run, and how long they are to be, but for the burst of the step itself.
  What a step comes to is thus a function of that burst and of the scheduler without all three
  (`step_plain`).
-/

namespace Handheld

variable {σ : Type}

/-- The settings with another length of a burst. -/
def Settings.withBurst (settings : Settings) (burst : Nat) (burst_pos : 0 < burst) : Settings :=
  { settings with burst, burst_pos }

namespace Scheduler

/-- The scheduler without what it knows of the wall. -/
def untimed (s : Scheduler σ) : Scheduler σ :=
  { s with epoch := none, settings.throttle := false }

/-- The scheduler without its queue. -/
def unqueued (s : Scheduler σ) : Scheduler σ := { s with channel.queue := none }

/-- What a scheduler simulates, without the wall and the way of delivery. -/
def bare (s : Scheduler σ) : Scheduler σ := s.untimed.unqueued

/-- The scheduler without its bursts: none has run, and each is to be a single cycle. -/
def unburst (s : Scheduler σ) : Scheduler σ :=
  { s with settings := s.settings.withBurst 1 Nat.one_pos, stats.bursts := 0 }

/-- The scheduler without the wall, the way of delivery and the bursts. -/
def plain (s : Scheduler σ) : Scheduler σ := s.bare.unburst

/-- No input waits. -/
def Quiet (s : Scheduler σ) : Prop :=
  ∀ queue, s.channel.queue = some queue → queue.waiting = []

end Scheduler

/-- A turn without what it knows of the wall. -/
def Turn.untimed (turn : Turn σ) : Turn σ :=
  { turn with pace := none, scheduler := turn.scheduler.untimed }

/-- A turn without the queue of its scheduler. -/
def Turn.unqueued (turn : Turn σ) : Turn σ := { turn with scheduler := turn.scheduler.unqueued }

/-- A turn without the wall and the way of delivery. -/
def Turn.bare (turn : Turn σ) : Turn σ := turn.untimed.unqueued

/-- A turn without the bursts of its scheduler. -/
def Turn.unburst (turn : Turn σ) : Turn σ := { turn with scheduler := turn.scheduler.unburst }

/-- A turn without the wall, the way of delivery and the bursts. -/
def Turn.plain (turn : Turn σ) : Turn σ := turn.bare.unburst

namespace Scheduler

variable [Board σ] {s : Scheduler σ}

/-- Deliver events inline, one after the other. -/
def inputAll (s : Scheduler σ) : List ButtonEvent → List Notice × Scheduler σ
  | [] => ([], s)
  | event :: events =>
    let (notice, s) := s.input event
    let (notices, s) := s.inputAll events
    (notice :: notices, s)

/-- What each event keeps is kept by all of them. -/
theorem inputAll_induction {p : Scheduler σ → Prop}
    (hinput : ∀ s event, p s → p (s.input event).2) (h : p s) (events : List ButtonEvent) :
    p (s.inputAll events).2 := by
  induction events generalizing s with
  | nil => exact h
  | cons event events ih => exact ih (hinput s event h)

/-- Inline delivery does not look beyond the board and the lines. -/
theorem input_map {f : Scheduler σ → Scheduler σ} (event : ButtonEvent)
    (hboard : (f s).board = s.board) (hlines : (f s).channel.lines = s.channel.lines)
    (hwritten : ∀ lines board,
      { f s with board, channel.lines := lines, stats.edges := (f s).stats.edges + 1 } =
        f { s with board, channel.lines := lines, stats.edges := s.stats.edges + 1 }) :
    (f s).input event = ((s.input event).1, f (s.input event).2) := by
  rw [input_eq, input_eq, hboard, hlines]
  cases s.channel.lines.write? s.board event with
  | none => rfl
  | some written => exact congrArg (Prod.mk Notice.applied) (hwritten written.1 written.2)

/-- Two second halves correspond if they look at the timers alike and what they then come to
    corresponds. -/
theorem settle_map {t : Scheduler σ} {f : Turn σ → Turn σ} {now now' : Nat} (state : CpuState)
    (hcycle : Board.cycle t.board = Board.cycle s.board)
    (hglow : t.nextGlow (Board.cycle s.board) = s.nextGlow (Board.cycle s.board))
    (hphase : ∀ glow, (t.polled (Board.cycle s.board) glow).phase =
      (s.polled (Board.cycle s.board) glow).phase)
    (hended :
      { outcome := .ended state, pace := none, scheduler := { t with phase := .ended state } } =
        f { outcome := .ended state, pace := none, scheduler := { s with phase := .ended state } })
    (hturn : ∀ glow outcome,
      let pace (r : Scheduler σ) now :=
        r.epoch.map fun epoch => r.settings.clock.pace epoch (Board.cycle s.board) now
      { outcome, pace := pace t now', scheduler := t.polled (Board.cycle s.board) glow } =
        f { outcome, pace := pace s now, scheduler := s.polled (Board.cycle s.board) glow } ∧
      { outcome, pace := pace t now', scheduler := (t.polled (Board.cycle s.board) glow).yielded } =
        f { outcome, pace := pace s now,
            scheduler := (s.polled (Board.cycle s.board) glow).yielded }) :
    t.settle state now' = (s.settle state now).map f := by
  cases hstate : state.isTerminal with
  | true =>
    rw [settle_of_isTerminal hstate, settle_of_isTerminal hstate, hended]
    rfl
  | false =>
    rw [settle_eq hstate, settle_eq hstate, hcycle, hglow]
    cases s.nextGlow (Board.cycle s.board) with
    | error fault => rfl
    | ok glow =>
      simp only [Except.map, hphase]
      split
      · exact congrArg Except.ok (hturn glow .yield).2
      · exact congrArg Except.ok (hturn glow .proceed).1

/-! ## The wall -/

omit [Board σ] in
theorem report_untimed (s : Scheduler σ) (event : ButtonEvent) :
    s.untimed.report event = (s.report event).untimed := by
  obtain ⟨board, ⟨lines, queue⟩, inner⟩ := s
  cases inner <;> cases queue <;> rfl

omit [Board σ] in
theorem foldl_report_untimed (s : Scheduler σ) (events : List ButtonEvent) :
    events.foldl report s.untimed = (events.foldl report s).untimed := by
  induction events generalizing s with
  | nil => rfl
  | cons event events ih => rw [List.foldl_cons, List.foldl_cons, report_untimed, ih]

theorem launch_untimed (s : Scheduler σ) (now now' : Nat) :
    s.untimed.launch now' = (s.launch now).map (Prod.map id untimed) := by
  have hpin : s.untimed.pinEpoch now' = s.untimed := rfl
  unfold launch
  rw [hpin, pinEpoch_eq s now]
  -- The drain and the burst do not look at the wall.
  change (Board.runBurst s.drainInput.board s.settings.burst >>= _) =
    (Board.runBurst s.drainInput.board s.settings.burst >>= _).map _
  cases Board.runBurst s.drainInput.board s.settings.burst with
  | error fault => rfl
  | ok run =>
    simp only [bind, Except.bind, pure, Except.pure, Except.map, Prod.map, id]
    rw [← foldl_report_untimed]
    rfl

theorem settle_untimed (s : Scheduler σ) (state : CpuState) (now now' : Nat) :
    s.untimed.settle state now' = (s.settle state now).map Turn.untimed := by
  exact settle_map state rfl rfl (fun _ => rfl) rfl fun _ _ => ⟨rfl, rfl⟩

/-- The wall has no influence on what a step simulates. -/
theorem step_untimed (s : Scheduler σ) (start finish start' finish' : Nat) :
    s.untimed.step start' finish' = (s.step start finish).map Turn.untimed := by
  have hphase : s.untimed.phase = s.phase := rfl
  unfold step
  rw [hphase, launch_untimed s start start']
  split
  · rfl
  · cases s.launch start with
    | error fault => rfl
    | ok launched => exact settle_untimed launched.2 launched.1 finish finish'

/-! ## The way of delivery -/

/-- Without waiting input there is nothing to take to the pins. -/
theorem drainInput_of_quiet (hquiet : s.Quiet) : s.drainInput = s := by
  obtain ⟨board, ⟨lines, queue⟩⟩ := s
  cases queue with
  | none => rfl
  | some queue =>
    obtain ⟨capacity, waiting, isOpen⟩ := queue
    obtain rfl : waiting = [] := hquiet _ rfl
    rfl

/-- After a drain no input waits. -/
theorem quiet_drainInput (s : Scheduler σ) : s.drainInput.Quiet := by
  intro queue hqueue
  obtain ⟨board, ⟨lines, queue⟩⟩ := s
  cases queue with
  | none => cases hqueue
  | some _ =>
    cases hqueue
    rfl

omit [Board σ] in
theorem quiet_unqueued (s : Scheduler σ) : s.unqueued.Quiet := nofun

theorem launch_channel (hinner : s.inner = none) {now : Nat} {state : CpuState} {s' : Scheduler σ}
    (h : s.launch now = .ok (state, s')) :
    s'.channel = s.drainInput.channel ∧ s'.inner = none := by
  rw [s.launch_eq hinner] at h
  cases hrun : Board.runBurst s.drainInput.board s.settings.burst with
  | error fault =>
    rw [hrun] at h
    cases h
  | ok run =>
    rw [hrun] at h
    cases h
    exact ⟨rfl, hinner⟩

theorem launch_unqueued (hquiet : s.Quiet) (hinner : s.inner = none) (now : Nat) :
    s.unqueued.launch now = (s.launch now).map (Prod.map id unqueued) := by
  have hepoch : (s.unqueued.pinEpoch now).epoch = (s.pinEpoch now).epoch := by
    rw [epoch_pinEpoch, epoch_pinEpoch]
    rfl
  rw [s.unqueued.launch_eq hinner, s.launch_eq hinner, drainInput_of_quiet hquiet,
    drainInput_of_quiet s.quiet_unqueued, hepoch]
  change (Board.runBurst s.board s.settings.burst).map _ = _
  cases Board.runBurst s.board s.settings.burst <;> rfl

theorem settle_unqueued (hquiet : s.Quiet) (state : CpuState) (now : Nat) :
    s.unqueued.settle state now = (s.settle state now).map Turn.unqueued := by
  refine settle_map state rfl rfl (fun _ => rfl) rfl fun glow _ => ⟨rfl, ?_⟩
  have hpolled : s.unqueued.polled (Board.cycle s.board) glow =
      (s.polled (Board.cycle s.board) glow).unqueued := rfl
  have hdrain : (s.polled (Board.cycle s.board) glow).drainInput =
      s.polled (Board.cycle s.board) glow := drainInput_of_quiet hquiet
  rw [hpolled, yielded, yielded, hdrain, drainInput_of_quiet (quiet_unqueued _)]
  rfl

/-- If no input waits, the second half of a step leaves the board alone. -/
theorem settle_board (hquiet : s.Quiet) {state : CpuState} {now : Nat} {turn : Turn σ}
    (h : s.settle state now = .ok turn) : turn.scheduler.board = s.board := by
  cases settle_ok h with
  | ended => rfl
  | yield glow =>
    have hpolled : (s.polled (Board.cycle s.board) glow).Quiet := hquiet
    rw [yielded, drainInput_of_quiet hpolled]
    rfl
  | proceed => rfl

/-- As long as no input waits, the way of delivery has no influence on a step. -/
theorem step_unqueued (hquiet : s.Quiet) (hinner : s.inner = none) (start finish : Nat) :
    s.unqueued.step start finish = (s.step start finish).map Turn.unqueued := by
  have hphase : s.unqueued.phase = s.phase := rfl
  unfold step
  rw [hphase, launch_unqueued hquiet hinner]
  split
  · rfl
  · cases hlaunch : s.launch start with
    | error fault => rfl
    | ok launched =>
      have hlaunched : launched.2.Quiet := by
        rw [Quiet, (launch_channel hinner hlaunch).1]
        exact s.quiet_drainInput
      exact settle_unqueued hlaunched launched.1 finish

/-- The first thing a step does is to take the waiting input to the pins. -/
theorem step_drainInput (hphase : ∀ state, s.phase ≠ .ended state) (hinner : s.inner = none)
    (start finish : Nat) : s.drainInput.step start finish = s.step start finish := by
  have hphase' : s.drainInput.phase = s.phase := rfl
  have hpin : (s.drainInput.pinEpoch start).epoch = (s.pinEpoch start).epoch := by
    rw [epoch_pinEpoch, epoch_pinEpoch]
    rfl
  have hlaunch : s.drainInput.launch start = s.launch start := by
    -- The second drain finds nothing left to take.
    rw [s.drainInput.launch_eq hinner, s.launch_eq hinner, drainInput_of_quiet s.quiet_drainInput,
      hpin]
    rfl
  rw [step_eq (hphase' ▸ hphase), step_eq hphase, hlaunch]

/-- A step of a scheduler without a sender of its own changes the channel as a drain does. -/
theorem step_channel (hphase : ∀ state, s.phase ≠ .ended state) (hinner : s.inner = none)
    {start finish : Nat} {turn : Turn σ} (h : s.step start finish = .ok turn) :
    turn.scheduler.channel = s.drainInput.channel ∧ turn.scheduler.inner = none := by
  rcases step_ok h with ⟨state, hended, -⟩ | ⟨-, state, s₁, hlaunch, hsettle⟩
  · exact absurd hended (hphase state)
  · obtain ⟨hchannel, hinner⟩ := launch_channel hinner hlaunch
    rw [← hchannel]
    cases settle_ok hsettle with
    | ended => exact ⟨rfl, hinner⟩
    | yield glow =>
      -- The drain at the yield finds nothing: the first half has taken all input to the pins.
      have hquiet : (s₁.polled (Board.cycle s₁.board) glow).Quiet := by
        rw [Quiet, polled, hchannel]
        exact s.quiet_drainInput
      rw [yielded, drainInput_of_quiet hquiet]
      exact ⟨rfl, hinner⟩
    | proceed => exact ⟨rfl, hinner⟩

/-! ## Both -/

/-- What a step simulates depends neither on the wall nor on the way of delivery. -/
theorem step_bare (hquiet : s.Quiet) (hinner : s.inner = none) (start finish : Nat) :
    s.bare.step 0 0 = (s.step start finish).map Turn.bare := by
  rw [bare, step_unqueued (s := s.untimed) hquiet hinner, step_untimed s start finish]
  cases s.step start finish <;> rfl

/-- Neither does what an event comes to that is delivered inline. -/
theorem input_bare (s : Scheduler σ) (event : ButtonEvent) :
    s.bare.input event = ((s.input event).1, (s.input event).2.bare) :=
  input_map event rfl rfl fun _ _ => rfl

/-! ## The bursts -/

theorem settle_unburst (s : Scheduler σ) (state : CpuState) (now : Nat) :
    s.unburst.settle state now = (s.settle state now).map Turn.unburst := by
  exact settle_map state rfl rfl (fun _ => rfl) rfl fun _ _ => ⟨rfl, rfl⟩

theorem settle_plain (hquiet : s.Quiet) (state : CpuState) (now : Nat) :
    s.plain.settle state 0 = (s.settle state now).map Turn.plain := by
  rw [plain, bare, settle_unburst, settle_unqueued (s := s.untimed) hquiet,
    settle_untimed s state now]
  cases s.settle state now <;> rfl

/-- What an event comes to that is delivered inline depends on none of the three. -/
theorem input_plain (s : Scheduler σ) (event : ButtonEvent) :
    s.plain.input event = ((s.input event).1, (s.input event).2.plain) :=
  input_map event rfl rfl fun _ _ => rfl

/-- Nor does what several events come to. -/
theorem inputAll_plain (s : Scheduler σ) (events : List ButtonEvent) :
    s.plain.inputAll events = ((s.inputAll events).1, (s.inputAll events).2.plain) := by
  induction events generalizing s with
  | nil => rfl
  | cons event events ih =>
    simp only [inputAll]
    rw [input_plain, ih]

/-- What a step comes to depends on the bursts only through the one that it runs. -/
theorem step_plain (hquiet : s.Quiet) (hinner : s.inner = none)
    (hphase : ∀ state, s.phase ≠ .ended state) (start finish : Nat) :
    (s.step start finish).map Turn.plain =
      (Board.runBurst s.board s.settings.burst).bind fun run =>
        { s.plain with board := run.2 }.settle run.1.state 0 := by
  rw [step_eq hphase, s.launch_eq hinner, drainInput_of_quiet hquiet]
  cases Board.runBurst s.board s.settings.burst with
  | error fault => rfl
  | ok run =>
    -- What the first half has noted, the epoch and the count of bursts, is not part of the plain.
    change (settle _ run.1.state finish).map Turn.plain = _
    rw [← settle_plain]
    · rfl
    · exact hquiet

/-! ## Agreement -/

/-- Two schedulers that agree on the board, the buttons, the picture and the timers, and on how
    often each thing has happened but a burst. -/
structure Agree (s t : Scheduler σ) : Prop where
  board : s.board = t.board
  lines : s.channel.lines = t.channel.lines
  afterglow : s.afterglow = t.afterglow
  published : s.published = t.published
  sampling : s.sampling = t.sampling
  redraw : s.redraw = t.redraw
  phase : s.phase = t.phase
  samples : s.stats.samples = t.stats.samples
  redraws : s.stats.redraws = t.stats.redraws
  edges : s.stats.edges = t.stats.edges

omit [Board σ] in
theorem agree_of_plain_eq {t : Scheduler σ} (h : s.plain = t.plain) : s.Agree t where
  board := (congrArg Scheduler.board h :)
  lines := (congrArg (fun s : Scheduler σ => s.channel.lines) h :)
  afterglow := (congrArg Scheduler.afterglow h :)
  published := (congrArg Scheduler.published h :)
  sampling := (congrArg Scheduler.sampling h :)
  redraw := (congrArg Scheduler.redraw h :)
  phase := (congrArg Scheduler.phase h :)
  samples := (congrArg (fun s : Scheduler σ => s.stats.samples) h :)
  redraws := (congrArg (fun s : Scheduler σ => s.stats.redraws) h :)
  edges := (congrArg (fun s : Scheduler σ => s.stats.edges) h :)

end Scheduler

end Handheld
