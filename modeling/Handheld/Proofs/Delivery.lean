import Handheld.Board.Demo
import Handheld.Board.Logged
import Handheld.Proofs.Independence

/-!
# The two ways of delivery

Inline delivery writes an event to its pin at once and debounces against the lines; queued delivery
debounces against what the sender knows and writes the pins at the next drain. As long as the queue
has room for all that is reported between two steps, the two come to the same, step by step.

* `Lines.writeAll_concat`: events are written one after the other, however they are split.
* `Scheduler.drainInput_push`: an event that joins the queue comes to what it comes to inline once
  those before it have been taken to the pins.
* `InStep`: the invariant between the two schedulers. The queued one, with its input taken to the
  pins, is the inline one, and its sender knows of each button what the inline one has on its line.
* `InStep.report`, `InStep.step`: a report and a step preserve it.
-/

namespace Handheld

variable {σ : Type}

/-- What is reported before a step, and what the clock on the wall reads at its start and when its
    burst is over. -/
structure Round where
  reports : List ButtonEvent
  start : Nat
  finish : Nat

/-- What came of a round: of each of its reports, and of its step. -/
structure Record (σ : Type) where
  notices : List Notice
  result : Except Fault (Turn σ)

namespace Scheduler

variable [Board σ]

omit [Board σ] in
/-- Report events through a sender, one after the other. -/
def sendAll (s : Scheduler σ) (sender : Sender) :
    List ButtonEvent → List Notice × Sender × Scheduler σ
  | [] => ([], sender, s)
  | event :: events =>
    let (notice, sender, s) := s.send sender event
    let (notices, sender, s) := s.sendAll sender events
    (notice :: notices, sender, s)

/-- Run rounds whose reports are delivered inline, up to the first step that fails or ends. -/
def inlineRun (s : Scheduler σ) : List Round → List (Record σ)
  | [] => []
  | round :: rounds =>
    let (notices, s) := s.inputAll round.reports
    match s.step round.start round.finish with
    | .error fault => [{ notices, result := .error fault }]
    | .ok turn =>
      { notices, result := .ok turn } ::
        match turn.outcome with
        | .ended _ => []
        | _ => turn.scheduler.inlineRun rounds

/-- Run rounds whose reports go through a sender, up to the first step that fails or ends. -/
def queuedRun (s : Scheduler σ) (sender : Sender) : List Round → List (Record σ)
  | [] => []
  | round :: rounds =>
    let (notices, sender, s) := s.sendAll sender round.reports
    match s.step round.start round.finish with
    | .error fault => [{ notices, result := .error fault }]
    | .ok turn =>
      { notices, result := .ok turn } ::
        match turn.outcome with
        | .ended _ => []
        | _ => turn.scheduler.queuedRun sender rounds

end Scheduler

/-- What a report comes to inline, and what it then comes to through a queue that has room. -/
inductive Delivered : Notice → Notice → Prop
  | edge : Delivered .applied .queued
  | unchanged : Delivered .unchanged .unchanged

/-- Two steps that come to the same: both fail in the same way, or both end alike and leave
    schedulers that agree, also on the number of bursts. -/
inductive SameResult : Except Fault (Turn σ) → Except Fault (Turn σ) → Prop
  | fault (fault : Fault) : SameResult (.error fault) (.error fault)
  | turn {t u : Turn σ} : t.outcome = u.outcome → t.scheduler.Agree u.scheduler →
    t.scheduler.stats = u.scheduler.stats → SameResult (.ok t) (.ok u)

/-- Two rounds, one delivered inline and one through a queue, that come to the same. -/
structure Record.Matches (r q : Record σ) : Prop where
  notices : List.Forall₂ Delivered r.notices q.notices
  result : SameResult r.result q.result

/-! ## Draining -/

section Draining

variable [Board σ]

theorem Lines.writeAll_concat (lines : Lines) (board : σ) (events : List ButtonEvent)
    (event : ButtonEvent) :
    lines.writeAll board (events ++ [event]) =
      let drained := lines.writeAll board events
      match drained.2.1.write? drained.2.2 event with
      | none => drained
      | some (lines, board) => (drained.1 + 1, lines, board) := by
  induction events generalizing lines board with
  | nil =>
    cases hwrite : lines.write? board event with
    | none => simp only [List.nil_append, writeAll, hwrite]
    | some written => simp only [List.nil_append, writeAll, hwrite]
  | cons first events ih =>
    simp only [List.cons_append, writeAll]
    cases lines.write? board first with
    | none => exact ih lines board
    | some written =>
      -- The first event is one edge more, on both sides.
      obtain ⟨lines, board⟩ := written
      simp only [ih]
      cases (lines.writeAll board events).2.1.write? (lines.writeAll board events).2.2 event <;> rfl

namespace Scheduler

/-- An event that joins the queue comes to what it comes to inline after a drain. -/
theorem drainInput_push (s : Scheduler σ) {queue : Queue} (hqueue : s.channel.queue = some queue)
    (event : ButtonEvent) :
    { s with channel.queue := some (queue.push event) }.drainInput =
      (s.drainInput.input event).2 := by
  obtain ⟨board, ⟨lines, _⟩⟩ := s
  cases hqueue
  rw [input_eq]
  simp only [drainInput_eq, Channel.drain, Queue.push, Lines.writeAll_concat]
  cases (lines.writeAll board queue.waiting).2.1.write?
    (lines.writeAll board queue.waiting).2.2 event <;> rfl

end Scheduler

end Draining

/-! ## The invariant -/

section Invariant

variable [Board σ] {s q : Scheduler σ} {sender : Sender} {capacity room : Nat}

/-- An inline scheduler and a queued one that have come to the same, with `room` for further
    reports: the queued one only still has to take its waiting input to the pins. -/
structure InStep (s q : Scheduler σ) (sender : Sender) (capacity room : Nat) : Prop where
  bare : s.bare = q.drainInput.bare
  known : sender.known = s.channel.lines.pressed
  inline : s.channel.queue = none
  queued : ∃ waiting,
    q.channel.queue = some { capacity, waiting } ∧ waiting.length + room ≤ capacity
  running : s.phase = .running
  inner : s.inner = none

theorem InStep.quiet (h : InStep s q sender capacity room) : s.Quiet := by
  intro queue hqueue
  rw [h.inline] at hqueue
  cases hqueue

theorem InStep.queued_running (h : InStep s q sender capacity room) : q.phase = .running :=
  (congrArg Scheduler.phase h.bare).symm.trans h.running

theorem InStep.queued_inner (h : InStep s q sender capacity room) : q.inner = none :=
  (congrArg Scheduler.inner h.bare).symm.trans h.inner

/-- An event that the lines show already is known to the sender as well; any other is written to its
    pin inline, and joins the queue. -/
theorem InStep.report (h : InStep s q sender capacity (room + 1)) (event : ButtonEvent) :
    Delivered (s.input event).1 (q.send sender event).1 ∧
    InStep (s.input event).2 (q.send sender event).2.2 (q.send sender event).2.1 capacity room := by
  obtain ⟨hbare, hknown, hinline, ⟨waiting, hqueue, hroom⟩, hrunning, hinner⟩ := h
  have hget : sender.known.get event.button = s.channel.lines.isPressed event.button := by
    rw [hknown]
    rfl
  by_cases hpressed : s.channel.lines.isPressed event.button = event.pressed
  · -- No edge: the line is at that level, and the sender knows.
    have hwrite : s.channel.lines.write? s.board event = none := if_pos hpressed
    rw [Scheduler.send, Channel.send_eq hqueue, if_pos (hget.trans hpressed), Scheduler.input_eq,
      hwrite]
    exact ⟨.unchanged, hbare, hknown, hinline, ⟨waiting, hqueue, by omega⟩, hrunning, hinner⟩
  · -- An edge: at the end of the queue it will find the lines as they are inline now.
    have hfree : waiting.length < capacity := by omega
    have hsend := Channel.send_eq hqueue sender event
    rw [if_neg (hget ▸ hpressed), if_pos hfree] at hsend
    have hinput : (s.input event).2.bare = (q.drainInput.input event).2.bare := by
      have hs := Scheduler.input_bare s event
      have hq := Scheduler.input_bare q.drainInput event
      rw [hbare, hq] at hs
      exact (congrArg Prod.snd hs).symm
    have hwrite : s.channel.lines.write? s.board event =
        some (⟨s.channel.lines.pressed.set event.button event.pressed⟩,
          Board.drive s.board event.button.pin (!event.pressed)) := if_neg hpressed
    rw [Scheduler.send, hsend]
    constructor
    · rw [Scheduler.input_eq, hwrite]
      exact .edge
    · have hdrained := hinput.trans (congrArg Scheduler.bare (q.drainInput_push hqueue event).symm)
      rw [Scheduler.input_eq, hwrite] at hdrained ⊢
      refine ⟨hdrained, ?_, hinline, ⟨waiting ++ [event], rfl, ?_⟩, hrunning, hinner⟩
      · simp only [hknown]
      · rw [List.length_append, List.length_singleton]
        omega

/-- The reports of a round come to the same. -/
theorem InStep.reports (events : List ButtonEvent)
    (h : InStep s q sender capacity (room + events.length)) :
    List.Forall₂ Delivered (s.inputAll events).1 (q.sendAll sender events).1 ∧
    InStep (s.inputAll events).2 (q.sendAll sender events).2.2 (q.sendAll sender events).2.1
      capacity room := by
  induction events generalizing s q sender with
  | nil => exact ⟨.nil, h⟩
  | cons event events ih =>
    obtain ⟨hfirst, hnext⟩ := h.report event
    obtain ⟨hrest, hlast⟩ := ih hnext
    exact ⟨.cons hfirst hrest, hlast⟩

/-- A step comes to the same but for the wall and the queue. -/
theorem InStep.map_step (h : InStep s q sender capacity room) (start finish start' finish' : Nat) :
    (s.step start finish).map Turn.bare = (q.step start' finish').map Turn.bare := by
  rw [← Scheduler.step_bare h.quiet h.inner, h.bare,
    Scheduler.step_bare q.quiet_drainInput h.queued_inner,
    Scheduler.step_drainInput (by rw [h.queued_running]; nofun) h.queued_inner]

/-- Unless it ends the program, a step leaves all of the queue's capacity for the reports of the
    next round. -/
theorem InStep.step (h : InStep s q sender capacity room) {start finish start' finish' : Nat}
    {t u : Turn σ} (ht : s.step start finish = .ok t) (hu : q.step start' finish' = .ok u)
    (hends : ∀ state, t.outcome ≠ .ended state) :
    InStep t.scheduler u.scheduler sender capacity capacity := by
  have hturn := h.map_step start finish start' finish'
  rw [ht, hu] at hturn
  have hbare : t.scheduler.bare = u.scheduler.bare :=
    congrArg Turn.scheduler (Except.ok.inj hturn)
  obtain ⟨htchannel, htinner⟩ := Scheduler.step_channel (by rw [h.running]; nofun) h.inner ht
  obtain ⟨huchannel, -⟩ :=
    Scheduler.step_channel (by rw [h.queued_running]; nofun) h.queued_inner hu
  -- After the step nothing waits on either side, so the schedulers themselves are the same.
  have hs : s.drainInput = s := Scheduler.drainInput_of_quiet h.quiet
  have hu : u.scheduler.drainInput = u.scheduler := by
    apply Scheduler.drainInput_of_quiet
    rw [Scheduler.Quiet, huchannel]
    exact q.quiet_drainInput
  obtain ⟨waiting, hqueue, -⟩ := h.queued
  constructor
  · rw [hbare, hu]
  · rw [h.known, htchannel, hs]
  · rw [htchannel, hs, h.inline]
  · refine ⟨[], ?_, Nat.le_of_eq (Nat.zero_add _)⟩
    rw [huchannel, Scheduler.drainInput_eq]
    simp only [Channel.drain, hqueue]
  · exact Scheduler.step_running h.running ht hends
  · exact htinner

omit [Board σ] in
/-- Steps that come to the same but for the wall and the queue leave schedulers that agree. -/
theorem sameResult_of_map_bare {x y : Except Fault (Turn σ)}
    (h : x.map Turn.bare = y.map Turn.bare) : SameResult x y := by
  cases x with
  | error fault =>
    cases y with
    | error fault' =>
      cases h
      exact .fault fault
    | ok u => cases h
  | ok t =>
    cases y with
    | error fault => cases h
    | ok u =>
      have hturn := Except.ok.inj h
      have hscheduler : t.scheduler.bare = u.scheduler.bare := congrArg Turn.scheduler hturn
      have hplain : t.scheduler.plain = u.scheduler.plain := congrArg Scheduler.unburst hscheduler
      exact .turn (congrArg Turn.outcome hturn :) (Scheduler.agree_of_plain_eq hplain)
        (congrArg Scheduler.stats hscheduler :)

/-! ## Runs -/

/-- From step to step the two ways of delivery come to the same. -/
theorem InStep.run {rounds₁ rounds₂ : List Round} (h : InStep s q sender capacity capacity)
    (hreports : rounds₁.map Round.reports = rounds₂.map Round.reports)
    (hcapacity : ∀ round ∈ rounds₁, round.reports.length ≤ capacity) :
    List.Forall₂ Record.Matches (s.inlineRun rounds₁) (q.queuedRun sender rounds₂) := by
  induction rounds₁ generalizing s q sender rounds₂ with
  | nil =>
    obtain rfl : rounds₂ = [] := List.map_eq_nil_iff.1 hreports.symm
    exact .nil
  | cons round₁ rounds₁ ih =>
    obtain ⟨round₂, rounds₂, rfl, hround, hrounds⟩ := List.map_eq_cons_iff.1 hreports.symm
    obtain ⟨hroom, hcapacity⟩ := List.forall_mem_cons.1 hcapacity
    have hready : InStep s q sender capacity (capacity - round₁.reports.length +
        round₁.reports.length) := by
      rw [Nat.sub_add_cancel hroom]
      exact h
    obtain ⟨hnotices, hready⟩ := hready.reports round₁.reports
    have hsame := sameResult_of_map_bare
      (hready.map_step round₁.start round₁.finish round₂.start round₂.finish)
    simp only [Scheduler.inlineRun, Scheduler.queuedRun]
    rw [hround]
    generalize ht : (s.inputAll round₁.reports).2.step round₁.start round₁.finish = x at hsame ⊢
    generalize hu : (q.sendAll sender round₁.reports).2.2.step round₂.start round₂.finish = y
      at hsame ⊢
    cases hsame with
    | fault fault => exact .cons ⟨hnotices, .fault fault⟩ .nil
    | @turn t u houtcome hagree hstats =>
      refine .cons ⟨hnotices, .turn houtcome hagree hstats⟩ ?_
      simp only [← houtcome]
      -- Unless the step has ended the run, the rounds that are left come to the same.
      have hnext (hends : ∀ state, t.outcome ≠ .ended state) :
          List.Forall₂ Record.Matches (t.scheduler.inlineRun rounds₁)
            (u.scheduler.queuedRun (q.sendAll sender round₁.reports).2.1 rounds₂) :=
        ih (hready.step ht hu hends) hrounds.symm hcapacity
      cases hends : t.outcome with
      | proceed => exact hnext (by rw [hends]; nofun)
      | yield => exact hnext (by rw [hends]; nofun)
      | ended state => exact .nil

end Invariant

/-- Two new schedulers over one board, with the two ways of delivery and a new sender, are in step.
    -/
theorem inStep_new [Board σ] {board : σ} {settings : Settings} {s q : Scheduler σ} {capacity : Nat}
    (hs : Scheduler.new board (.ofStrategy .inline) settings = .ok s)
    (hq : Scheduler.new board (.ofStrategy (.queued capacity)) settings = .ok q) :
    InStep s q {} capacity capacity := by
  obtain ⟨-, rfl⟩ := Scheduler.new_ok hs
  obtain ⟨-, rfl⟩ := Scheduler.new_ok hq
  exact ⟨rfl, rfl, rfl, ⟨[], rfl, Nat.le_of_eq (Nat.zero_add _)⟩, rfl, rfl⟩

/-- The two ways of delivery agree. Over one board under watch, whatever it does, let one scheduler
    deliver inline and another through a queue with room for all that is reported between two steps.
    Then in every run, up to and including the first step that fails or ends, the two agree after
    every step, on the pins written so far and their order as well; and what is applied inline is
    queued, and what is not is unchanged in both. -/
theorem Scheduler.inlineRun_matches_queuedRun [Board σ] {board : Logged σ} {settings : Settings}
    {s q : Scheduler (Logged σ)} {capacity : Nat}
    (hs : Scheduler.new board (.ofStrategy .inline) settings = .ok s)
    (hq : Scheduler.new board (.ofStrategy (.queued capacity)) settings = .ok q)
    {rounds₁ rounds₂ : List Round}
    (hreports : rounds₁.map Round.reports = rounds₂.map Round.reports)
    (hcapacity : ∀ round ∈ rounds₁, round.reports.length ≤ capacity) :
    List.Forall₂ Record.Matches (s.inlineRun rounds₁) (q.queuedRun {} rounds₂) :=
  (inStep_new hs hq).run hreports hcapacity

/-- A tap within one round, and a press that is told twice. -/
def tap : List Round :=
  [{ reports := [⟨.a, true⟩, ⟨.a, false⟩], start := 0, finish := 0 },
    { reports := [⟨.up, true⟩, ⟨.up, true⟩], start := 0, finish := 0 }]

/-- A queue for two events is enough for a tap. -/
theorem Scheduler.inlineRun_matches_queuedRun_tap :
    ∃ settings s q, Settings.ofMicros 16000000 1000 1000 16667 = .ok settings ∧
      Scheduler.new ({ board := .start 16000000 } : Logged DemoBoard) (.ofStrategy .inline)
        settings = .ok s ∧
      Scheduler.new ({ board := .start 16000000 } : Logged DemoBoard) (.ofStrategy (.queued 2))
        settings = .ok q ∧
      List.Forall₂ Record.Matches (s.inlineRun tap) (q.queuedRun {} tap) := by
  obtain ⟨settings, s, q, hsettings, hs, hq⟩ : ∃ settings s q,
      Settings.ofMicros 16000000 1000 1000 16667 = .ok settings ∧
      Scheduler.new ({ board := .start 16000000 } : Logged DemoBoard) (.ofStrategy .inline)
        settings = .ok s ∧
      Scheduler.new ({ board := .start 16000000 } : Logged DemoBoard) (.ofStrategy (.queued 2))
        settings = .ok q := ⟨_, _, _, rfl, rfl, rfl⟩
  exact ⟨settings, s, q, hsettings, hs, hq,
    Scheduler.inlineRun_matches_queuedRun hs hq rfl (by decide)⟩

end Handheld
