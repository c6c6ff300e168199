import Handheld.Proofs.Sampling
import Handheld.Scheduler
import Mathlib.Tactic.Common

/-!
# What a step can do

The two halves of a step, each opened once: `launch_ok` and `settle_ok` say all that a half that
succeeds can have done, so that what is preserved along a run is read off them and the halves
themselves need not be unfolded again.

* `Lines.write?_induction`, `Channel.drain_induction`, `Lines.pullUp_induction`: what driving a pin
  preserves, all that reaches the pins preserves.
* `Channel.send_eq`: what a sender's report is answered, and what it changes.
* `foldl_report`: the reports of a burst reach nothing but the queue and the board's own sender.
* `launch_run`: a first half that succeeds, with the board's reports made one by one.
* `Timer.poll`: how a timer moves when it is looked at, which `sampleIfDue_eq` and `redrawIfDue_eq`
  say of the two timers, with what is counted.
* `launch_eq`, `settle_eq`: the halves as equations, for a scheduler without a sender of its own and
  for a burst that did not end the program.
* `step_eq`, `step_ok`: a step of a scheduler that has not ended is its two halves; one that has
  ended is left alone (`step_of_ended`, `idle_of_ended`).
* `step_running`: a pending yield is always seen to, so between two steps a scheduler is running
  unless it has ended.
-/

namespace Handheld

theorem bind_eq_ok {ε α β : Type} {x : Except ε α} {f : α → Except ε β} {b : β} :
    (x >>= f) = .ok b ↔ ∃ a, x = .ok a ∧ f a = .ok b := by
  cases x <;> simp [bind, Except.bind]

namespace Timer

/-- The timer after it was looked at, having fired if it was due. -/
def poll (timer : Timer) (cycle : Nat) : Timer :=
  if timer.isDue cycle then timer.reschedule cycle else timer

/-- How often a timer fires when it is looked at. -/
def fires (timer : Timer) (cycle : Nat) : Nat := if timer.isDue cycle then 1 else 0

theorem period_poll (timer : Timer) (cycle : Nat) : (timer.poll cycle).period = timer.period := by
  rw [poll]
  split <;> rfl

variable {timer : Timer} {now : Nat}

theorem poll_of_lt (h : now < timer.deadline) : timer.poll now = timer ∧ timer.fires now = 0 := by
  have hdue : timer.isDue now = false := decide_eq_false (Nat.not_le_of_lt h)
  simp only [poll, fires, hdue, Bool.false_eq_true, if_false, and_self]

theorem poll_of_le (h : timer.deadline ≤ now) :
    timer.poll now = timer.reschedule now ∧ timer.fires now = 1 := by
  have hdue : timer.isDue now = true := decide_eq_true h
  simp only [poll, fires, hdue, if_true, and_self]

/-- A timer that is less than a period late keeps its phase. -/
theorem deadline_reschedule_of_lt (h : now < timer.deadline + timer.period) :
    (timer.reschedule now).deadline = timer.deadline + timer.period :=
  if_neg (Nat.not_le_of_lt h)

/-- A timer that is a whole period late starts its period anew. -/
theorem deadline_reschedule_of_le (h : timer.deadline + timer.period ≤ now) :
    (timer.reschedule now).deadline = now + timer.period :=
  if_pos h

end Timer

/-! ## Driving pins -/

section Driving

variable {σ : Type} [Board σ] {P : σ → Prop}

/-- What driving a pin preserves, an event preserves that is written to its pin. -/
theorem Lines.write?_induction
    (hdrive : ∀ (board : σ) (pin : Pin) (level : Bool), P board → P (Board.drive board pin level))
    {lines lines' : Lines} {board board' : σ} {event : ButtonEvent} (h : P board)
    (hwrite : lines.write? board event = some (lines', board')) : P board' := by
  rw [write?] at hwrite
  split at hwrite
  · cases hwrite
  · cases hwrite
    exact hdrive _ _ _ h

/-- What driving a pin preserves, a drain preserves. -/
theorem Channel.drain_induction
    (hdrive : ∀ (board : σ) (pin : Pin) (level : Bool), P board → P (Board.drive board pin level))
    (channel : Channel) {board : σ} (h : P board) : P (channel.drain board).2.2 := by
  have hwrite (lines : Lines) (events : List ButtonEvent) :
      P (lines.writeAll board events).2.2 := by
    induction events generalizing lines board with
    | nil => exact h
    | cons event events ih =>
      rw [Lines.writeAll]
      split
      · exact ih h lines
      · next lines' board' hwrite => exact ih (Lines.write?_induction hdrive h hwrite) lines'
  rw [drain]
  cases channel.queue with
  | none => exact h
  | some queue => exact hwrite _ _

/-- What driving a pin preserves, the start of the lines preserves. -/
theorem Lines.pullUp_induction
    (hdrive : ∀ (board : σ) (pin : Pin) (level : Bool), P board → P (Board.drive board pin level))
    (lines : Lines) {board : σ} (h : P board) : P (lines.pullUp board) := by
  rw [pullUp]
  induction Button.all generalizing board with
  | nil => exact h
  | cons button buttons ih => exact ih (hdrive _ _ _ h)

end Driving

/-! ## Reports -/

/-- What a report to an open queue is answered, and what it changes. -/
theorem Channel.send_eq {channel : Channel} {capacity : Nat} {waiting : List ButtonEvent}
    (hqueue : channel.queue = some { capacity, waiting }) (sender : Sender) (event : ButtonEvent) :
    channel.send sender event =
      if sender.known.get event.button = event.pressed then (.unchanged, sender, channel)
      else if waiting.length < capacity then
        (.queued, { sender with known := sender.known.set event.button event.pressed },
          { channel with queue := some { capacity, waiting := waiting ++ [event] } })
      else (.dropped, { sender with dropped := sender.dropped + 1 }, channel) := by
  obtain ⟨lines, _⟩ := channel
  cases hqueue
  by_cases hsame : sender.known.get event.button = event.pressed
  · simp only [send, Sender.notify, if_pos hsame]
  · by_cases hfree : waiting.length < capacity
    · simp [send, Sender.notify, Queue.hasRoom, Queue.push, hsame, hfree]
    · simp [send, Sender.notify, Queue.hasRoom, hsame, hfree]

namespace Scheduler

variable {σ : Type} [Board σ] {s s' : Scheduler σ} {now cycle start finish : Nat} {state : CpuState}
  {turn : Turn σ}

/-! ## Start and input -/

/-- A new scheduler has driven every pin and started both timers, and nothing has happened yet. -/
theorem new_ok {board : σ} {channel : Channel} {settings : Settings}
    (h : Scheduler.new board channel settings = .ok s) :
    Board.frequency board = settings.clock.frequency ∧
    s = {
      board := channel.lines.pullUp board
      channel
      settings
      afterglow := .dark (Board.size board).1 (Board.size board).2
      sampling := .start (Board.cycle board) settings.samplingPeriod .sampling
        settings.samplingPeriod_pos
      redraw := .start (Board.cycle board) settings.redrawPeriod .redraw
        settings.redrawPeriod_pos } := by
  rw [Scheduler.new] at h
  split at h
  · next hfrequency =>
    cases h
    exact ⟨hfrequency, rfl⟩
  · cases h

/-- A new scheduler takes no reports of the board's own. -/
theorem new_inner {board : σ} {channel : Channel} {settings : Settings}
    (h : Scheduler.new board channel settings = .ok s) : { s with inner := none } = s := by
  obtain ⟨-, rfl⟩ := new_ok h
  rfl

/-- Inline delivery writes an event to its pin, unless the button is in that state already. -/
theorem input_eq (s : Scheduler σ) (event : ButtonEvent) :
    s.input event =
      match s.channel.lines.write? s.board event with
      | none => (.unchanged, s)
      | some (lines, board) =>
        (.applied, { s with board, channel.lines := lines, stats.edges := s.stats.edges + 1 }) := by
  rw [input, Channel.notify]
  cases s.channel.lines.write? s.board event <;> rfl

/-! ## The first half -/

omit [Board σ] in
/-- Pinning the epoch changes nothing else. -/
theorem pinEpoch_eq (s : Scheduler σ) (now : Nat) :
    s.pinEpoch now = { s with epoch := (s.pinEpoch now).epoch } := by
  rw [pinEpoch]
  split <;> rfl

omit [Board σ] in
theorem epoch_pinEpoch (s : Scheduler σ) (now : Nat) :
    (s.pinEpoch now).epoch =
      if s.settings.throttle && s.epoch.isNone then some now else s.epoch := by
  rw [pinEpoch]
  split <;> rfl

/-- A drain reaches the board, the channel and the count of edges. -/
theorem drainInput_eq (s : Scheduler σ) :
    s.drainInput = { s with
      board := (s.channel.drain s.board).2.2
      channel := (s.channel.drain s.board).2.1
      stats.edges := s.stats.edges + (s.channel.drain s.board).1 } := rfl

omit [Board σ] in
/-- A report of the board's own reaches its sender and the queue. -/
theorem report_eq (s : Scheduler σ) (event : ButtonEvent) :
    s.report event =
      { s with
        inner := (s.report event).inner
        channel.queue := (s.report event).channel.queue } := by
  obtain ⟨board, ⟨lines, queue⟩, inner⟩ := s
  cases inner <;> cases queue <;> rfl

omit [Board σ] in
/-- Reports of the board's own reach its sender and the queue. -/
theorem foldl_report (s : Scheduler σ) (events : List ButtonEvent) :
    ∃ inner queue, events.foldl report s = { s with inner, channel.queue := queue } := by
  induction events generalizing s with
  | nil => exact ⟨s.inner, s.channel.queue, rfl⟩
  | cons event events ih =>
    obtain ⟨inner, queue, h⟩ := ih (s.report event)
    rw [List.foldl_cons, h, report_eq]
    exact ⟨inner, queue, rfl⟩

omit [Board σ] in
/-- Without a sender of its own a board's reports are not taken. -/
theorem foldl_report_of_inner_eq_none (h : s.inner = none) (events : List ButtonEvent) :
    events.foldl report s = s := by
  induction events with
  | nil => rfl
  | cons event events ih => rw [List.foldl_cons, report, h, ih]

/-- A first half that succeeds is a drain and a burst, whose reports are then made one by one. -/
theorem launch_run (h : s.launch now = .ok (state, s')) :
    ∃ began burst board, began = (s.pinEpoch now).drainInput ∧
      Board.runBurst began.board began.settings.burst = .ok (burst, board) ∧
      state = burst.state ∧
      s' = burst.reports.foldl report
        { began with board, stats.bursts := began.stats.bursts + 1 } := by
  rw [launch] at h
  obtain ⟨⟨burst, board⟩, hrun, h⟩ := bind_eq_ok.1 h
  simp only [pure, Except.pure, Except.ok.injEq, Prod.mk.injEq] at h
  exact ⟨_, burst, board, rfl, hrun, h.1.symm, h.2.symm⟩

/-- What the first half of a step can have done: a drain and a burst, after whose reports only the
    queue and the board's own sender may differ. -/
theorem launch_ok (h : s.launch now = .ok (state, s')) :
    ∃ burst board inner queue,
      Board.runBurst s.drainInput.board s.settings.burst = .ok (burst, board) ∧
      state = burst.state ∧
      s' = { s.drainInput with
        board
        epoch := (s.pinEpoch now).epoch
        stats.bursts := s.stats.bursts + 1
        inner
        channel.queue := queue } := by
  obtain ⟨_, burst, board, rfl, hrun, hstate, h⟩ := launch_run h
  rw [pinEpoch_eq] at hrun h
  -- The reports are told to a scheduler that has counted the burst already.
  obtain ⟨inner, queue, hreports⟩ := foldl_report
    { { s with epoch := (s.pinEpoch now).epoch }.drainInput with
      board, stats.bursts := s.stats.bursts + 1 } burst.reports
  exact ⟨burst, board, inner, queue, hrun, hstate, h.trans hreports⟩

/-- The first half of a step succeeds if its burst does. -/
theorem launch_of_runBurst {burst : Burst} {board : σ}
    (hrun : Board.runBurst s.drainInput.board s.settings.burst = .ok (burst, board)) (now : Nat) :
    s.launch now = .ok (burst.state, burst.reports.foldl report
      { s.drainInput with
        board
        epoch := (s.pinEpoch now).epoch
        stats.bursts := s.stats.bursts + 1 }) := by
  rw [launch, pinEpoch_eq]
  change Board.runBurst s.drainInput.board s.settings.burst >>= _ = _
  rw [hrun]
  rfl

/-- The first half of a step of a scheduler that does not listen to the board's own reports. -/
theorem launch_eq (s : Scheduler σ) (hinner : s.inner = none) (now : Nat) :
    s.launch now = (Board.runBurst s.drainInput.board s.settings.burst).map fun run =>
      (run.1.state, { s.drainInput with
        board := run.2
        epoch := (s.pinEpoch now).epoch
        stats.bursts := s.stats.bursts + 1 }) := by
  rw [launch, pinEpoch_eq]
  change Board.runBurst s.drainInput.board s.settings.burst >>= _ = _
  cases Board.runBurst s.drainInput.board s.settings.burst with
  | error fault => rfl
  | ok run =>
    simp only [bind, Except.bind, pure, Except.pure, Except.map]
    rw [foldl_report_of_inner_eq_none]
    · rfl
    · exact hinner

/-- The first half of a step fails only where its burst does. -/
theorem launch_error {fault : Fault} (h : s.launch now = .error fault) :
    Board.runBurst s.drainInput.board s.settings.burst = .error fault := by
  rw [launch, pinEpoch_eq] at h
  change (Board.runBurst s.drainInput.board s.settings.burst >>= _) = _ at h
  cases hrun : Board.runBurst s.drainInput.board s.settings.burst with
  | error fault' =>
    rw [hrun] at h
    cases h
    rfl
  | ok run =>
    rw [hrun] at h
    cases h

/-- The first half of a step publishes nothing. -/
theorem launch_published (h : s.launch now = .ok (state, s')) : s'.published = s.published := by
  obtain ⟨_, _, _, _, -, -, rfl⟩ := launch_ok h
  rfl

/-! ## The second half -/

/-- What becomes of the afterglow when the sampling timer is looked at. -/
def nextGlow (s : Scheduler σ) (cycle : Nat) : Except Fault Afterglow :=
  if s.sampling.isDue cycle then
    s.afterglow.sample (Board.grid s.board) s.settings.decay s.settings.increase
  else .ok s.afterglow

omit [Board σ] in
/-- The scheduler after both timers were looked at, with the afterglow that came of it. -/
def polled (s : Scheduler σ) (cycle : Nat) (afterglow : Afterglow) : Scheduler σ :=
  { s with
    afterglow
    sampling := s.sampling.poll cycle
    redraw := s.redraw.poll cycle
    phase := if s.redraw.isDue cycle then .yieldPending else s.phase
    stats.samples := s.stats.samples + s.sampling.fires cycle
    stats.redraws := s.stats.redraws + s.redraw.fires cycle }

/-- The scheduler after a yield: waiting input is taken to the pins and a frame is published. -/
def yielded (s : Scheduler σ) : Scheduler σ := { s.drainInput.publish with phase := .running }

/-- What looking at the sampling timer does. -/
theorem sampleIfDue_eq (s : Scheduler σ) (cycle : Nat) :
    s.sampleIfDue cycle = (s.nextGlow cycle).map fun afterglow =>
      { s with
        afterglow
        sampling := s.sampling.poll cycle
        stats.samples := s.stats.samples + s.sampling.fires cycle } := by
  rw [sampleIfDue, nextGlow, Timer.poll, Timer.fires]
  split
  · cases s.afterglow.sample (Board.grid s.board) s.settings.decay s.settings.increase <;> rfl
  · rfl

omit [Board σ] in
/-- What looking at the redraw timer does. -/
theorem redrawIfDue_eq (s : Scheduler σ) (cycle : Nat) :
    s.redrawIfDue cycle =
      { s with
        redraw := s.redraw.poll cycle
        phase := if s.redraw.isDue cycle then .yieldPending else s.phase
        stats.redraws := s.stats.redraws + s.redraw.fires cycle } := by
  rw [redrawIfDue, Timer.poll, Timer.fires]
  split <;> rfl

/-- The second half of a step after a burst that did not end the program: both timers are looked at,
    and a pending yield is seen to. -/
theorem settle_eq (hstate : state.isTerminal = false) (s : Scheduler σ) (now : Nat) :
    s.settle state now = (s.nextGlow (Board.cycle s.board)).map fun glow =>
      let pace := s.epoch.map fun epoch => s.settings.clock.pace epoch (Board.cycle s.board) now
      let s := s.polled (Board.cycle s.board) glow
      if s.phase = .yieldPending then { outcome := .yield, pace, scheduler := s.yielded }
      else { outcome := .proceed, pace, scheduler := s } := by
  simp only [settle, hstate, Bool.false_eq_true, if_false, sampleIfDue_eq]
  cases s.nextGlow (Board.cycle s.board) with
  | error fault => rfl
  | ok glow =>
    simp only [Except.map, bind, Except.bind, redrawIfDue_eq]
    exact (apply_ite Except.ok ..).symm

omit [Board σ] in
/-- Looking at timers that are not due changes nothing. -/
theorem polled_of_not_due (hsampling : s.sampling.isDue cycle = false)
    (hredraw : s.redraw.isDue cycle = false) : s.polled cycle s.afterglow = s := by
  unfold polled Timer.poll Timer.fires
  simp only [hsampling, hredraw, Bool.false_eq_true, if_false, Nat.add_zero]

/-- The second half of a step changes nothing if neither timer is due. -/
theorem settle_of_not_due (hstate : state.isTerminal = false) (hphase : s.phase = .running)
    (hsampling : s.sampling.isDue (Board.cycle s.board) = false)
    (hredraw : s.redraw.isDue (Board.cycle s.board) = false) (now : Nat) :
    s.settle state now = .ok {
      outcome := .proceed
      pace := s.epoch.map fun epoch => s.settings.clock.pace epoch (Board.cycle s.board) now
      scheduler := s } := by
  have hglow : s.nextGlow (Board.cycle s.board) = .ok s.afterglow := by
    rw [nextGlow, hsampling]
    rfl
  rw [settle_eq hstate, hglow]
  simp only [Except.map, polled_of_not_due hsampling hredraw, hphase, reduceCtorEq, if_false]

/-- After a burst that ended the program the second half only notes that it did. -/
theorem settle_of_isTerminal (hstate : state.isTerminal = true) (s : Scheduler σ) (now : Nat) :
    s.settle state now =
      .ok {
        outcome := .ended state
        pace := none
        scheduler := { s with phase := .ended state } } := by
  simp only [settle, hstate, if_true]

/-- What the second half of a step can come to, after a burst that ended in `state`. -/
inductive Settled (s : Scheduler σ) (state : CpuState) : Turn σ → Prop
  /-- The program has ended; no timer is looked at. -/
  | ended : state.isTerminal = true → Settled s state {
      outcome := .ended state
      pace := none
      scheduler := { s with phase := .ended state } }
  /-- A pending yield is seen to. -/
  | yield (glow : Afterglow) (pace : Option Pace) : state.isTerminal = false →
    s.nextGlow (Board.cycle s.board) = .ok glow →
    (s.polled (Board.cycle s.board) glow).phase = .yieldPending → Settled s state {
      outcome := .yield
      pace
      scheduler := (s.polled (Board.cycle s.board) glow).yielded }
  /-- There is nothing to see to. -/
  | proceed (glow : Afterglow) (pace : Option Pace) : state.isTerminal = false →
    s.nextGlow (Board.cycle s.board) = .ok glow →
    (s.polled (Board.cycle s.board) glow).phase ≠ .yieldPending → Settled s state {
      outcome := .proceed
      pace
      scheduler := s.polled (Board.cycle s.board) glow }

theorem settle_ok (h : s.settle state now = .ok turn) : s.Settled state turn := by
  cases hstate : state.isTerminal with
  | true =>
    rw [settle_of_isTerminal hstate] at h
    cases h
    exact .ended hstate
  | false =>
    rw [settle_eq hstate] at h
    cases hglow : s.nextGlow (Board.cycle s.board) with
    | error fault =>
      rw [hglow] at h
      cases h
    | ok glow =>
      rw [hglow] at h
      simp only [Except.map, Except.ok.injEq] at h
      subst h
      split
      · next hphase => exact .yield glow _ hstate hglow hphase
      · next hphase => exact .proceed glow _ hstate hglow hphase

/-- Looking at the sampling timer succeeds if the picture memory has a byte for each eight pixels of
    the afterglow. -/
theorem nextGlow_of_size
    (hsize : (Board.grid s.board).size = s.afterglow.width * s.afterglow.height / 8) (cycle : Nat) :
    ∃ glow, s.nextGlow cycle = .ok glow := by
  rw [nextGlow]
  split
  · exact ⟨_, if_pos hsize⟩
  · exact ⟨s.afterglow, rfl⟩

/-- The afterglow keeps its extent when the sampling timer is looked at. -/
theorem nextGlow_extent {glow : Afterglow} (h : s.nextGlow cycle = .ok glow) :
    glow.width = s.afterglow.width ∧ glow.height = s.afterglow.height := by
  rw [nextGlow] at h
  split at h
  · exact Afterglow.sample_extent h
  · cases h
    exact ⟨rfl, rfl⟩

/-- The second half of a step succeeds if the picture memory has a byte for each eight pixels. -/
theorem settle_of_size
    (hsize : (Board.grid s.board).size = s.afterglow.width * s.afterglow.height / 8)
    (state : CpuState) (now : Nat) : ∃ turn, s.settle state now = .ok turn := by
  cases hstate : state.isTerminal with
  | true => exact ⟨_, settle_of_isTerminal hstate s now⟩
  | false =>
    obtain ⟨glow, hglow⟩ := nextGlow_of_size hsize (Board.cycle s.board)
    exact ⟨_, by rw [settle_eq hstate, hglow]; rfl⟩

/-- The afterglow keeps its extent in the second half of a step. -/
theorem settle_extent (h : s.settle state now = .ok turn) :
    turn.scheduler.afterglow.width = s.afterglow.width ∧
      turn.scheduler.afterglow.height = s.afterglow.height := by
  cases settle_ok h with
  | ended => exact ⟨rfl, rfl⟩
  | yield glow pace _ hglow => exact nextGlow_extent hglow
  | proceed glow pace _ hglow => exact nextGlow_extent hglow

/-- A frame is published exactly by a second half that yields. -/
theorem settle_published (h : s.settle state now = .ok turn) :
    (turn.outcome = .yield ∧ turn.scheduler.published.sequence = s.published.sequence + 1) ∨
    (turn.outcome ≠ .yield ∧ turn.scheduler.published = s.published) := by
  cases settle_ok h with
  | ended => exact .inr ⟨nofun, rfl⟩
  | yield => exact .inl ⟨rfl, rfl⟩
  | proceed => exact .inr ⟨nofun, rfl⟩

/-- What driving a pin preserves, the second half of a step preserves. -/
theorem settle_induction {P : σ → Prop}
    (hdrive : ∀ (board : σ) (pin : Pin) (level : Bool), P board → P (Board.drive board pin level))
    (hboard : P s.board) (h : s.settle state now = .ok turn) : P turn.scheduler.board := by
  rcases settle_ok h with - | - | -
  · exact hboard
  · exact Channel.drain_induction hdrive s.channel hboard
  · exact hboard

theorem settle_settings (h : s.settle state now = .ok turn) :
    turn.scheduler.settings = s.settings := by
  rcases settle_ok h with - | - | -
  · rfl
  · rfl
  · rfl

/-- The second half of a step runs no burst. -/
theorem settle_bursts (h : s.settle state now = .ok turn) :
    turn.scheduler.stats.bursts = s.stats.bursts := by
  rcases settle_ok h with - | - | -
  · rfl
  · rfl
  · rfl

/-- A second half that ends notes with which state. -/
theorem settle_ended (h : s.settle state now = .ok turn) {last : CpuState}
    (hlast : turn.outcome = .ended last) : last = state ∧ turn.scheduler.phase = .ended last := by
  cases settle_ok h with
  | ended =>
    cases hlast
    exact ⟨rfl, rfl⟩
  | yield => cases hlast
  | proceed => cases hlast

/-! ## Steps -/

/-- A step is its two halves, unless the scheduler has ended. -/
theorem step_eq (hphase : ∀ state, s.phase ≠ .ended state) (start finish : Nat) :
    s.step start finish =
      s.launch start >>= fun launched => launched.2.settle launched.1 finish := by
  rw [step]
  split
  · next ended hended => exact absurd hended (hphase ended)
  · rfl

/-- A step that succeeds is its two halves, unless the scheduler has ended: then it does nothing. -/
theorem step_ok (h : s.step start finish = .ok turn) :
    (∃ state, s.phase = .ended state ∧
      turn = { outcome := .ended state, pace := none, scheduler := s }) ∨
    ((∀ state, s.phase ≠ .ended state) ∧
      ∃ state s₁, s.launch start = .ok (state, s₁) ∧ s₁.settle state finish = .ok turn) := by
  rw [step] at h
  split at h
  · next state hphase =>
    cases h
    exact .inl ⟨state, hphase, rfl⟩
  · next hphase =>
    obtain ⟨⟨state, s₁⟩, hlaunch, hsettle⟩ := bind_eq_ok.1 h
    exact .inr ⟨hphase, state, s₁, hlaunch, hsettle⟩

/-- Two halves that succeed make a step. -/
theorem step_of_launch {s₁ : Scheduler σ} (hphase : ∀ state, s.phase ≠ .ended state)
    (hlaunch : s.launch start = .ok (state, s₁)) (hsettle : s₁.settle state finish = .ok turn) :
    s.step start finish = .ok turn := by
  rw [step_eq hphase]
  exact bind_eq_ok.2 ⟨_, hlaunch, hsettle⟩

/-- A first half that fails is a step that does. -/
theorem step_of_launch_error {fault : Fault} (hphase : ∀ state, s.phase ≠ .ended state)
    (hlaunch : s.launch start = .error fault) (finish : Nat) :
    s.step start finish = .error fault := by
  rw [step_eq hphase, hlaunch]
  rfl

/-- Unless it ends, a scheduler that is running is so after a step. -/
theorem step_running (hphase : s.phase = .running) (h : s.step start finish = .ok turn)
    (hends : ∀ state, turn.outcome ≠ .ended state) : turn.scheduler.phase = .running := by
  rcases step_ok h with ⟨state, hended, -⟩ | ⟨-, state, s₁, hlaunch, hsettle⟩
  · rw [hphase] at hended
    cases hended
  · obtain ⟨_, _, _, _, -, -, rfl⟩ := launch_ok hlaunch
    cases settle_ok hsettle with
    | ended => exact absurd rfl (hends state)
    | yield => rfl
    | proceed glow pace hstate hglow hpending =>
      -- The phase of a scheduler that goes on is the one it had, since no redraw was asked for.
      rw [polled] at hpending ⊢
      split at hpending
      · exact absurd rfl hpending
      · next hdue => exact (if_neg hdue).trans hphase

/-- A step leaves the settings as they are. -/
theorem step_settings (h : s.step start finish = .ok turn) :
    turn.scheduler.settings = s.settings := by
  rcases step_ok h with ⟨state, -, rfl⟩ | ⟨-, state, s₁, hlaunch, hsettle⟩
  · rfl
  · have hsettings := settle_settings hsettle
    obtain ⟨_, _, _, _, -, -, rfl⟩ := launch_ok hlaunch
    exact hsettings

/-- A step that ends leaves a scheduler that has ended. -/
theorem step_ended (h : s.step start finish = .ok turn) {last : CpuState}
    (hlast : turn.outcome = .ended last) : turn.scheduler.phase = .ended last := by
  rcases step_ok h with ⟨state, hended, rfl⟩ | ⟨-, state, s₁, -, hsettle⟩
  · cases hlast
    exact hended
  · exact (settle_ended hsettle hlast).2

/-- A scheduler that has ended is left alone by a step. -/
theorem step_of_ended (hphase : s.phase = .ended state) (start finish : Nat) :
    s.step start finish = .ok { outcome := .ended state, pace := none, scheduler := s } := by
  rw [step, hphase]

/-! ## Idling -/

/-- Idling stops after a step that does not just go on. -/
theorem idle_of_stop {wall : Nat} (h : s.step wall wall = .ok turn)
    (hstop : turn.outcome ≠ .proceed) (limit : Nat) :
    s.idle wall (limit + 1) = .ok (some {
      outcome := turn.outcome, scheduler := turn.scheduler, wall := wall + turn.slept }) := by
  simp only [idle, h, bind, Except.bind, pure, Except.pure, if_neg hstop]

/-- Idling goes on after any other. -/
theorem idle_of_proceed {wall : Nat} (h : s.step wall wall = .ok turn)
    (hproceed : turn.outcome = .proceed) (limit : Nat) :
    s.idle wall (limit + 1) = turn.scheduler.idle (wall + turn.slept) limit := by
  simp only [idle, h, bind, Except.bind, if_pos hproceed]

/-- A scheduler that has ended is idle at once. -/
theorem idle_of_ended (hphase : s.phase = .ended state) (wall limit : Nat) :
    s.idle wall (limit + 1) =
      .ok (some { outcome := .ended state, scheduler := s, wall }) :=
  idle_of_stop (step_of_ended hphase wall wall) nofun limit

/-- Idling is steps that just go on, and one more that does not. What the former preserve holds when
    the last one begins. -/
theorem idle_ok {P : Scheduler σ → Prop} {wall limit : Nat} {idle : Idle σ}
    (hproceed : ∀ {s : Scheduler σ} {start finish : Nat} {turn : Turn σ},
      P s → s.step start finish = .ok turn → turn.outcome = .proceed → P turn.scheduler)
    (h : P s) (hidle : s.idle wall limit = .ok (some idle)) :
    ∃ before start finish turn, P before ∧ before.step start finish = .ok turn ∧
      turn.outcome ≠ .proceed ∧ idle.outcome = turn.outcome ∧ idle.scheduler = turn.scheduler := by
  induction limit generalizing s wall with
  | zero => cases hidle
  | succ limit ih =>
    rcases hstep : s.step wall wall with fault | turn
    · rw [Scheduler.idle, hstep] at hidle
      cases hidle
    · by_cases hgoes : turn.outcome = .proceed
      · rw [idle_of_proceed hstep hgoes] at hidle
        exact ih (hproceed h hstep hgoes) hidle
      · rw [idle_of_stop hstep hgoes] at hidle
        cases hidle
        exact ⟨s, wall, wall, turn, h, hstep, hgoes, rfl, rfl⟩

end Scheduler

end Handheld
