import Handheld.Board.Scripted
import Handheld.Proofs.Pictures

/-!
# The end of a program

A burst in which the program finishes or crashes is the last one. The step it belongs to is cut
short, and from then on a scheduler does nothing of its own accord.

* `Scheduler.Finished`: all that the last step changes. It begins as any other, with the input that
  waits and the burst; then no timer is looked at, nothing is published and no input is taken any
  more (`Scheduler.step_of_isTerminal`).
* `Scheduler.Quiesced`: what an ended scheduler may still come to. Steps and idling leave it alone
  (`step_of_ended`, `idle_of_ended`), a report reaches the queue, and only input that is delivered
  inline goes on to the pins, since nobody asks there whether the program still runs. A call
  preserves it (`Quiesced.call`).
* `Scheduler.ended_absorbs` puts the two together, for whatever is asked after the last step.
-/

namespace Handheld

/-- The queue with more events at its end. -/
def Queue.pushAll (queue : Queue) (events : List ButtonEvent) : Queue :=
  { queue with waiting := queue.waiting ++ events }

theorem Queue.pushAll_nil (queue : Queue) : queue.pushAll [] = queue := by
  rw [pushAll, List.append_nil]

theorem Queue.pushAll_append (queue : Queue) (events more : List ButtonEvent) :
    queue.pushAll (events ++ more) = (queue.pushAll events).pushAll more := by
  simp only [pushAll, List.append_assoc]

/-- A report is added to those that wait, or is not. -/
theorem Sender.notify_queue (sender : Sender) (queue : Queue) (event : ButtonEvent) :
    ∃ taken : List ButtonEvent, taken.Sublist [event] ∧
      (sender.notify queue event).2.2 = queue.pushAll taken := by
  have hnone : ∃ taken : List ButtonEvent, taken.Sublist [event] ∧ queue = queue.pushAll taken :=
    ⟨[], List.nil_sublist _, queue.pushAll_nil.symm⟩
  rw [notify]
  split
  · exact hnone
  · split
    · exact hnone
    · split
      · exact ⟨[event], List.Sublist.refl _, rfl⟩
      · exact hnone

namespace Scheduler

variable {σ : Type} [Board σ] {s first : Scheduler σ} {state : CpuState}

/-! ## The last step -/

omit [Board σ] in
theorem queue_report (s : Scheduler σ) (event : ButtonEvent) :
    ∃ taken : List ButtonEvent, taken.Sublist [event] ∧
      (s.report event).channel.queue = s.channel.queue.map fun queue => queue.pushAll taken := by
  obtain ⟨board, ⟨lines, queue⟩, inner⟩ := s
  rcases queue with - | queue
  · exact ⟨[], List.nil_sublist _, by cases inner <;> rfl⟩
  rcases inner with - | sender
  · exact ⟨[], List.nil_sublist _, congrArg some queue.pushAll_nil.symm⟩
  · obtain ⟨taken, htaken, hqueue⟩ := sender.notify_queue queue event
    exact ⟨taken, htaken, congrArg some hqueue⟩

omit [Board σ] in
/-- Of the reports of a burst some are added, in their order, to those that wait. -/
theorem queue_foldl_report (s : Scheduler σ) (events : List ButtonEvent) :
    ∃ taken : List ButtonEvent, taken.Sublist events ∧ (events.foldl report s).channel.queue =
      s.channel.queue.map fun queue => queue.pushAll taken := by
  induction events generalizing s with
  | nil =>
    refine ⟨[], List.nil_sublist _, ?_⟩
    simp only [Queue.pushAll_nil, List.foldl_nil, Option.map_id']
  | cons event events ih =>
    obtain ⟨one, hone, hreport⟩ := s.queue_report event
    obtain ⟨rest, hrest, hreports⟩ := ih (s.report event)
    refine ⟨one ++ rest, hone.append hrest, ?_⟩
    rw [List.foldl_cons, hreports, hreport, Option.map_map]
    simp only [Queue.pushAll_append, Function.comp_def]

omit [Board σ] in
/-- Reports of the board's own reach its sender, and some of them the end of the queue. -/
theorem foldl_report_taken (s : Scheduler σ) (events : List ButtonEvent) :
    ∃ inner taken, List.Sublist taken events ∧ events.foldl report s =
      { s with inner, channel.queue := s.channel.queue.map fun queue => queue.pushAll taken } := by
  obtain ⟨inner, queue, hreports⟩ := s.foldl_report events
  obtain ⟨taken, htaken, hqueue⟩ := s.queue_foldl_report events
  rw [hreports] at hqueue
  exact ⟨inner, taken, htaken, by rw [hreports, ← hqueue]⟩

/-- A drain leaves an empty queue. -/
theorem queue_drainInput (s : Scheduler σ) :
    s.drainInput.channel.queue = s.channel.queue.map fun queue => { queue with waiting := [] } := by
  obtain ⟨board, ⟨lines, queue⟩⟩ := s
  cases queue <;> rfl

/-- What the last step of a program, begun at the wall time `start`, makes of the scheduler `s`. Its
    burst came to `burst`, and left the board as `board`. -/
structure Finished (s : Scheduler σ) (start : Nat) (burst : Burst) (board : σ)
    (next : Scheduler σ) : Prop where
  /-- No pin is driven after the burst. -/
  board_eq : next.board = board
  /-- The input that waited was taken to the pins before the burst. -/
  lines : next.channel.lines = s.drainInput.channel.lines
  /-- What waits now was reported in the burst. -/
  queue : ∃ taken : List ButtonEvent, taken.Sublist burst.reports ∧
    next.channel.queue = s.channel.queue.map fun queue => { queue with waiting := taken }
  settings : next.settings = s.settings
  afterglow : next.afterglow = s.afterglow
  sampling : next.sampling = s.sampling
  redraw : next.redraw = s.redraw
  published : next.published = s.published
  /-- An epoch that is pinned stays as it is. -/
  epoch : next.epoch = if s.settings.throttle && s.epoch.isNone then some start else s.epoch
  phase : next.phase = .ended burst.state
  stats : next.stats =
    { s.stats with bursts := s.stats.bursts + 1, edges := s.drainInput.stats.edges }

/-- A step is cut short by a burst that ends the program. -/
theorem step_of_isTerminal {burst : Burst} {board : σ} (hphase : ∀ state, s.phase ≠ .ended state)
    (hrun : Board.runBurst s.drainInput.board s.settings.burst = .ok (burst, board))
    (hstate : burst.state.isTerminal = true) (start finish : Nat) :
    ∃ next, s.step start finish =
        .ok { outcome := .ended burst.state, pace := none, scheduler := next } ∧
      s.Finished start burst board next := by
  -- The reports are told to a scheduler that has counted the burst already.
  obtain ⟨inner, taken, htaken, hreports⟩ := foldl_report_taken { s.drainInput with
    board, epoch := (s.pinEpoch start).epoch, stats.bursts := s.stats.bursts + 1 } burst.reports
  have hlaunch := launch_of_runBurst hrun start
  rw [hreports] at hlaunch
  refine ⟨_, step_of_launch hphase hlaunch (settle_of_isTerminal hstate _ finish), ?_⟩
  exact {
    board_eq := rfl
    lines := rfl
    queue := ⟨taken, htaken, by
      dsimp only
      rw [queue_drainInput, Option.map_map]
      rfl⟩
    settings := rfl
    afterglow := rfl
    sampling := rfl
    redraw := rfl
    published := rfl
    epoch := s.epoch_pinEpoch start
    phase := rfl
    stats := rfl }

/-! ## Afterwards -/

/-- What an ended scheduler `first` may still come to: only its board, its channel and its count of
    edges can have changed. -/
def Quiesced (first s : Scheduler σ) : Prop :=
  s = { first with board := s.board, channel := s.channel, stats.edges := s.stats.edges }

omit [Board σ] in
theorem Quiesced.phase (h : first.Quiesced s) : s.phase = first.phase := by
  rw [h]

theorem sampled_of_ended (hphase : s.phase = .ended state) (now : Nat) : s.sampled now = [] := by
  rw [sampled, hphase]

theorem idleSampled_of_ended (hphase : s.phase = .ended state) (wall limit : Nat) :
    s.idleSampled wall limit = [] := by
  cases limit with
  | zero => rfl
  | succ limit =>
    rw [idleSampled, sampled_of_ended hphase, step_of_ended hphase]
    rfl

/-- Whatever is asked of an ended scheduler, it samples nothing and publishes nothing. -/
theorem Quiesced.call (h : first.Quiesced s) (hphase : s.phase = .ended state) {call : Call}
    {called : Called σ} (hcall : s.call call = .ok (some called)) :
    called.grids = [] ∧ called.yields = 0 ∧ first.Quiesced called.scheduler := by
  cases call with
  | step start finish =>
    rw [Scheduler.call, step_of_ended hphase] at hcall
    cases hcall
    exact ⟨sampled_of_ended hphase start, rfl, h⟩
  | idle wall limit =>
    rcases limit with - | limit
    · cases hcall
    · rw [Scheduler.call, idle_of_ended hphase] at hcall
      cases hcall
      exact ⟨idleSampled_of_ended hphase wall _, rfl, h⟩
  | input event =>
    cases hcall
    refine ⟨rfl, rfl, ?_⟩
    rw [Quiesced, h, input_eq]
    dsimp only
    split
    · rfl
    · rfl
  | send sender event =>
    cases hcall
    refine ⟨rfl, rfl, ?_⟩
    rw [Quiesced, h]
    rfl

/-- No more comes of any number of calls. -/
theorem History.quiesced {grids : List (Array UInt8)} {yields : Nat}
    (hphase : first.phase = .ended state) (h : History first grids yields s) :
    grids = [] ∧ yields = 0 ∧ first.Quiesced s := by
  induction h with
  | start => exact ⟨rfl, rfl, rfl⟩
  | call _ hcall ih =>
    obtain ⟨rfl, rfl, hs⟩ := ih
    obtain ⟨hgrids, hyields, hcalled⟩ := hs.call (hs.phase.trans hphase) hcall
    exact ⟨by rw [hgrids, List.append_nil], by rw [hyields], hcalled⟩

/-- What input that is delivered inline does, to a scheduler that has ended as to any other: it
    changes its own line, drives its own pin and is counted, unless the line is as it says. -/
theorem input_eq_or (s : Scheduler σ) (event : ButtonEvent) :
    s.input event = (.unchanged, s) ∨
    s.input event = (.applied, { s with
      board := Board.drive s.board event.button.pin (!event.pressed)
      channel.lines := ⟨s.channel.lines.pressed.set event.button event.pressed⟩
      stats.edges := s.stats.edges + 1 }) := by
  rw [input_eq, Lines.write?]
  split
  · next hwrite =>
    split at hwrite
    · exact .inl rfl
    · cases hwrite
  · next hwrite =>
    split at hwrite
    · cases hwrite
    · cases hwrite
      exact .inr rfl

omit [Board σ] in
/-- A report of the player's side reaches only the queue. -/
theorem send_eq (s : Scheduler σ) (sender : Sender) (event : ButtonEvent) :
    (s.send sender event).2.2 =
      { s with channel.queue := (s.send sender event).2.2.channel.queue } := by
  obtain ⟨board, ⟨lines, queue⟩⟩ := s
  cases queue <;> rfl

/-- The end of a program. A step whose burst ends it comes back, tells the state in which it ended,
    does not sleep, and changes only what `Finished` allows. Let anything be asked of the scheduler
    from then on, in any order. It samples nothing and publishes nothing any more, and only its
    board, its channel and its count of edges can change. At every moment a step and an idle run
    tell the same state again and change nothing at all, the board and the queue included; input
    that is delivered inline changes nothing, or else its own line, its own pin and the count of
    edges; and a report reaches only the queue. -/
theorem ended_absorbs {burst : Burst} {board : σ} (hphase : ∀ state, s.phase ≠ .ended state)
    (hrun : Board.runBurst s.drainInput.board s.settings.burst = .ok (burst, board))
    (hstate : burst.state.isTerminal = true) (start finish : Nat) :
    ∃ next, s.step start finish =
        .ok { outcome := .ended burst.state, pace := none, scheduler := next } ∧
      s.Finished start burst board next ∧
      ∀ grids yields t, History next grids yields t →
        grids = [] ∧ yields = 0 ∧
        t = { next with board := t.board, channel := t.channel, stats.edges := t.stats.edges } ∧
        (∀ start finish, t.step start finish =
          .ok { outcome := .ended burst.state, pace := none, scheduler := t }) ∧
        (∀ wall limit, t.idle wall (limit + 1) =
          .ok (some { outcome := .ended burst.state, scheduler := t, wall })) ∧
        (∀ event, t.input event = (.unchanged, t) ∨
          t.input event = (.applied, { t with
            board := Board.drive t.board event.button.pin (!event.pressed)
            channel.lines := ⟨t.channel.lines.pressed.set event.button event.pressed⟩
            stats.edges := t.stats.edges + 1 })) ∧
        ∀ sender event, (t.send sender event).2.2 =
          { t with channel.queue := (t.send sender event).2.2.channel.queue } := by
  obtain ⟨next, hstep, hfinished⟩ := step_of_isTerminal hphase hrun hstate start finish
  refine ⟨next, hstep, hfinished, fun grids yields t hhistory => ?_⟩
  obtain ⟨hgrids, hyields, hquiesced⟩ := hhistory.quiesced hfinished.phase
  have hended : t.phase = .ended burst.state := hquiesced.phase.trans hfinished.phase
  exact ⟨hgrids, hyields, hquiesced, step_of_ended hended, idle_of_ended hended, t.input_eq_or,
    t.send_eq⟩

/-- A button waits, and both timers are long overdue when the program ends at cycle 100. Another
    button is reported in its last burst, and a third one pressed after it. -/
theorem ended_absorbs_overdue :
    ∃ made next t,
      Scheduler.new ({ frequency := 1000, width := 1, height := 8, cycle := 0, grid := #[1]
                       flags := {}
                       bursts := [{ advance := some 100, ending := some .done
                                    reports := [⟨.b, true⟩] }] } : ScriptedBoard)
        { queue := some { capacity := 4, waiting := [⟨.a, true⟩] } } Metronome.settings =
          .ok made ∧
      { made with inner := some {} }.step 3 9 =
        .ok { outcome := .ended .done, pace := none, scheduler := next } ∧
      Board.cycle next.board = 100 ∧ next.sampling.deadline = 7 ∧ next.redraw.deadline = 14 ∧
      next.stats = { bursts := 1, edges := 1 } ∧ next.epoch = some 3 ∧
      History next [] 0 t ∧ t.stats = { bursts := 1, edges := 2 } ∧
      t.step 20 30 = .ok { outcome := .ended .done, pace := none, scheduler := t } := by
  obtain ⟨made, burst, board, hnew, hphase, hrun, hstate, hcycle, hsampling, hredraw, hstats,
      hepoch, hlines⟩ : ∃ made burst board,
      Scheduler.new ({ frequency := 1000, width := 1, height := 8, cycle := 0, grid := #[1]
                       flags := {}
                       bursts := [{ advance := some 100, ending := some .done
                                    reports := [⟨.b, true⟩] }] } : ScriptedBoard)
        { queue := some { capacity := 4, waiting := [⟨.a, true⟩] } } Metronome.settings =
          .ok made ∧
      made.phase = .running ∧
      Board.runBurst made.drainInput.board made.settings.burst = .ok (burst, board) ∧
      burst.state = .done ∧ Board.cycle board = 100 ∧ made.sampling.deadline = 7 ∧
      made.redraw.deadline = 14 ∧
      { made.stats with
        bursts := made.stats.bursts + 1, edges := made.drainInput.stats.edges } =
          ({ bursts := 1, edges := 1 } : Stats) ∧
      (if made.settings.throttle && made.epoch.isNone then some 3 else made.epoch) = some 3 ∧
      made.drainInput.channel.lines.isPressed .up = false :=
    ⟨_, _, _, rfl, rfl, rfl, rfl, rfl, rfl, rfl, rfl, rfl, rfl⟩
  obtain ⟨next, hstep, hfinished, hafterwards⟩ :=
    ended_absorbs (s := { made with inner := some {} }) (hphase ▸ nofun) hrun (hstate ▸ rfl) 3 9
  rw [hstate] at hstep hafterwards
  have hinput : (next.input ⟨.up, true⟩).2.stats = { bursts := 1, edges := 2 } := by
    have hup : next.channel.lines.isPressed .up ≠ true := by
      rw [hfinished.lines]
      exact Bool.eq_false_iff.1 hlines
    rw [input_eq, Lines.write?, if_neg hup]
    dsimp only
    rw [hfinished.stats.trans hstats]
  have hhistory : History next [] 0 (next.input ⟨.up, true⟩).2 :=
    .call .start (rfl : next.call (.input ⟨.up, true⟩) = _)
  obtain ⟨-, -, -, hagain, -⟩ := hafterwards _ _ _ hhistory
  exact ⟨made, next, _, hnew, hstep, hfinished.board_eq ▸ hcycle, hfinished.sampling ▸ hsampling,
    hfinished.redraw ▸ hredraw, hfinished.stats.trans hstats, hfinished.epoch.trans hepoch,
    hhistory, hinput, hagain 20 30⟩

end Scheduler

end Handheld
