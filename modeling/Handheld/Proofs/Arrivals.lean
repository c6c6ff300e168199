import Handheld.Board.Scripted
import Handheld.Proofs.Mirror
import Handheld.Proofs.Step
import Mathlib.Logic.Relation

/-!
# Input that arrives at any moment

A scheduler steps while any number of senders report to its queue, some of them from within a burst.
`Traffic` is such a scheduler with its senders, cut so finely that between two moves someone else
can come in: a drain is a move for each event it takes, and it goes on until it finds nothing that
waits, be it that the last event arrived only meanwhile. A step that nobody interferes with is a
sequence of such moves (`Traffic.reaches_step`).

Senders that were cloned know different things, so an event may reach the pins' side that changes
nothing there; the lines debounce once more. What was taken shows in the lines and in the log of the
board (`Consumed`), and every move preserves this (`Traffic.Accounted.move`).
-/

namespace Handheld

variable {σ : Type}

/-- What the board's pins are driven to at the start. -/
def pullUps : List (Pin × Bool) := Button.all.map fun button => (button.pin, true)

variable {consumed : List ButtonEvent} {lines : Lines} {count : Nat} {board next : Logged σ}

/-- A burst writes no pin. -/
theorem Consumed.runBurst [Board σ] {before : List (Pin × Bool)}
    (h : Consumed before consumed lines count board) {limit : Nat} {burst : Burst}
    (hrun : Board.runBurst board limit = .ok (burst, next)) :
    Consumed before consumed lines count next := by
  obtain ⟨⟨burst, ran⟩, -, hnext⟩ := bind_eq_ok.1 hrun
  cases hnext
  exact { h with }

/-- The levels that a pin was driven to, oldest first. -/
def Logged.levels (watched : Logged σ) (pin : Pin) : List Bool :=
  (watched.writes.toList.filter (·.1 = pin)).map (·.2)

/-- A button's pin was driven high at the start, and then low for each press and high for each
    release that were edges. -/
theorem Consumed.levels_eq (h : Consumed pullUps consumed lines count board) (button : Button) :
    board.levels button.pin = (false :: states (edges consumed) button).map (!·) := by
  have hpullUp : (pullUps.filter (·.1 = button.pin)).map (·.2) = [true] := by
    cases button <;> decide
  have hpin (event : ButtonEvent) : event.pinWrite.1 = button.pin ↔ event.button = button :=
    ⟨Button.pin_inj, congrArg Button.pin⟩
  rw [Logged.levels, h.writes, List.filter_append, List.map_append, hpullUp, List.filter_map,
    List.map_map, states]
  simp only [Function.comp_def, hpin, List.map_cons, List.map_map, Bool.not_false,
    List.singleton_append]
  rfl

/-- The levels of a button's pin alternate, from high on, and the last one is that of the button. -/
theorem Consumed.levels_alternate (h : Consumed pullUps consumed lines count board)
    (button : Button) :
    (board.levels button.pin).head? = some true ∧
    List.IsChain (· ≠ ·) (board.levels button.pin) ∧
    (board.levels button.pin).getLast? = some (!lines.isPressed button) := by
  rw [h.levels_eq]
  refine ⟨rfl, ?_, ?_⟩
  · rw [List.isChain_map]
    simpa only [ne_eq, Bool.not_inj_iff] using isChain_states_edges consumed button
  · rw [List.getLast?_map, List.getLast?_cons, ← List.getLastD_eq_getLast?, h.lines,
      ← stateAfter_edges]
    rfl

/-! ## Taking input -/

namespace Scheduler

variable [Board σ] {s next : Scheduler σ} {event : ButtonEvent} {queue : Queue}
  {waiting : List ButtonEvent}

/-- Take the oldest waiting event to its pin. -/
def takeInput? (s : Scheduler σ) : Option (ButtonEvent × Scheduler σ) :=
  (s.channel.take? s.board).map fun (event, edges, channel, board) =>
    (event, { s with board, channel, stats.edges := s.stats.edges + edges })

/-- The scheduler once an event was taken to its pin and others wait. -/
def taken (s : Scheduler σ) (event : ButtonEvent) (queue : Queue) : Scheduler σ :=
  let written := s.channel.lines.write s.board event
  { s with
    board := written.2.2
    channel := { lines := written.2.1, queue := some queue }
    stats.edges := s.stats.edges + written.1 }

theorem takeInput?_of_cons (hqueue : s.channel.queue = some queue)
    (hwaiting : queue.waiting = event :: waiting) :
    s.takeInput? = some (event, s.taken event { queue with waiting }) := by
  rw [takeInput?, Channel.take?_of_cons hqueue hwaiting]
  rfl

theorem takeInput?_of_nil (hqueue : s.channel.queue = some queue) (hwaiting : queue.waiting = []) :
    s.takeInput? = none := by
  rw [takeInput?, Channel.take?_of_nil hqueue hwaiting]
  rfl

/-- A drain takes one event after the other. -/
theorem drainInput_of_cons (hqueue : s.channel.queue = some queue)
    (hwaiting : queue.waiting = event :: waiting) :
    s.drainInput = (s.taken event { queue with waiting }).drainInput := by
  rw [drainInput, Channel.drain_of_cons hqueue hwaiting]
  simp only [drainInput, taken, Nat.add_assoc]

/-- A drain is over when there is none left. -/
theorem drainInput_of_nil (hqueue : s.channel.queue = some queue) (hwaiting : queue.waiting = []) :
    s.drainInput = s := by
  rw [drainInput, Channel.drain_of_nil hqueue hwaiting]
  rfl

end Scheduler

/-! ## Traffic -/

/-- Where a scheduler is in its step. -/
inductive Moment
  /-- No step is going on. -/
  | between
  /-- Taking input to the pins, before the burst. -/
  | draining
  /-- After a burst that ended in `state`; the board's own reports are still to be made. -/
  | launched (state : CpuState) (reports : List ButtonEvent)
  /-- Taking input to the pins, before the publication. -/
  | yielding
  deriving DecidableEq, Repr

/-- Whether input is being taken to the pins. -/
def Moment.isDrain : Moment → Bool
  | .between => false
  | .draining => true
  | .launched _ _ => false
  | .yielding => true

/-- A scheduler with a queue and the senders that report to it. -/
structure Traffic (σ : Type) where
  scheduler : Scheduler (Logged σ)
  senders : List Sender
  moment : Moment := .between
  /-- The events that were answered `queued`, oldest first. -/
  queued : List ButtonEvent := []
  /-- The events that were taken to the pins, oldest first. -/
  consumed : List ButtonEvent := []

namespace Traffic

/-- The traffic after a sender's report, with what became of the sender. -/
def send (t : Traffic σ) (sender : Sender) (event : ButtonEvent) : Sender × Traffic σ :=
  let (notice, sender, channel) := t.scheduler.channel.send sender event
  (sender, { t with
    scheduler.channel := channel
    queued := t.queued ++ if notice = .queued then [event] else [] })

variable [Board σ]

/-- A moment of the scheduler or of one of the senders. -/
inductive Move (t : Traffic σ) : Traffic σ → Prop
  /-- A sender is cloned, with what it knows and what it has counted. -/
  | clone {sender : Sender} : sender ∈ t.senders →
    Move t { t with senders := t.senders ++ [sender] }
  /-- A sender reports an event. -/
  | send {i : Nat} {sender : Sender} (event : ButtonEvent) : t.senders[i]? = some sender →
    Move t { (t.send sender event).2 with senders := t.senders.set i (t.send sender event).1 }
  /-- A step begins. -/
  | begin (now : Nat) : t.moment = .between → (∀ state, t.scheduler.phase ≠ .ended state) →
    Move t { t with scheduler := t.scheduler.pinEpoch now, moment := .draining }
  /-- A drain takes the oldest waiting event. -/
  | take {event : ButtonEvent} {s : Scheduler (Logged σ)} : t.moment.isDrain = true →
    t.scheduler.takeInput? = some (event, s) →
    Move t { t with scheduler := s, consumed := t.consumed ++ [event] }
  /-- The drain before the burst is over, and the burst runs. -/
  | burst {burst : Burst} {board : Logged σ} : t.moment = .draining →
    t.scheduler.takeInput? = none →
    Board.runBurst t.scheduler.board t.scheduler.settings.burst = .ok (burst, board) →
    Move t { t with
      scheduler.board := board
      scheduler.stats.bursts := t.scheduler.stats.bursts + 1
      moment := .launched burst.state burst.reports }
  /-- The board reports an event of its own; nobody listens. -/
  | ignore {state : CpuState} {event : ButtonEvent} {reports : List ButtonEvent} :
    t.moment = .launched state (event :: reports) → t.scheduler.inner = none →
    Move t { t with moment := .launched state reports }
  /-- The board reports an event of its own through its sender. -/
  | report {state : CpuState} {event : ButtonEvent} {reports : List ButtonEvent} {sender : Sender} :
    t.moment = .launched state (event :: reports) → t.scheduler.inner = some sender →
    Move t { (t.send sender event).2 with
      scheduler.inner := some (t.send sender event).1
      moment := .launched state reports }
  /-- The program has ended, and so has the step. -/
  | finish {state : CpuState} : t.moment = .launched state [] → state.isTerminal = true →
    Move t { t with scheduler.phase := .ended state, moment := .between }
  /-- The timers are looked at, and no redraw is due. -/
  | proceed {state : CpuState} {glow : Afterglow} :
    t.moment = .launched state [] → state.isTerminal = false →
    t.scheduler.nextGlow (Board.cycle t.scheduler.board) = .ok glow →
    (t.scheduler.polled (Board.cycle t.scheduler.board) glow).phase ≠ .yieldPending →
    Move t { t with
      scheduler := t.scheduler.polled (Board.cycle t.scheduler.board) glow
      moment := .between }
  /-- The timers are looked at, and a yield is asked for. -/
  | yield {state : CpuState} {glow : Afterglow} :
    t.moment = .launched state [] → state.isTerminal = false →
    t.scheduler.nextGlow (Board.cycle t.scheduler.board) = .ok glow →
    (t.scheduler.polled (Board.cycle t.scheduler.board) glow).phase = .yieldPending →
    Move t { t with
      scheduler := t.scheduler.polled (Board.cycle t.scheduler.board) glow
      moment := .yielding }
  /-- The drain before the publication is over, and the frame is published. -/
  | publish : t.moment = .yielding → t.scheduler.takeInput? = none →
    Move t { t with
      scheduler := { t.scheduler.publish with phase := .running }
      moment := .between }

/-! ## The invariant -/

variable {t next : Traffic σ} {capacity : Nat} {waiting : List ButtonEvent}

/-- What was queued was consumed or waits, and what was consumed shows on the board. -/
structure Accounted (t : Traffic σ) (capacity : Nat) (waiting : List ButtonEvent) : Prop where
  queue : t.scheduler.channel.queue = some { capacity, waiting }
  room : waiting.length ≤ capacity
  queued : t.consumed ++ waiting = t.queued
  consumed : Consumed pullUps t.consumed t.scheduler.channel.lines t.scheduler.stats.edges
    t.scheduler.board

omit [Board σ] in
/-- A report joins what waits if it is answered `queued`, and changes nothing else of it. -/
theorem Accounted.send (h : t.Accounted capacity waiting) (sender : Sender) (event : ButtonEvent) :
    ∃ waiting', (t.send sender event).2.Accounted capacity waiting' := by
  obtain ⟨hqueue, hroom, hqueued, hconsumed⟩ := h
  rw [Traffic.send, Channel.send_eq hqueue]
  by_cases hsame : sender.known.get event.button = event.pressed
  · rw [if_pos hsame]
    exact ⟨waiting, hqueue, hroom, by simpa using hqueued, hconsumed⟩
  · by_cases hfree : waiting.length < capacity
    · rw [if_neg hsame, if_pos hfree]
      refine ⟨waiting ++ [event], rfl, ?_, ?_, hconsumed⟩
      · rw [List.length_append]
        exact hfree
      · simp [← hqueued]
    · rw [if_neg hsame, if_neg hfree]
      exact ⟨waiting, hqueue, hroom, by simpa using hqueued, hconsumed⟩

/-- A taking moves the oldest event that waits to those that were consumed. -/
theorem Accounted.take {event : ButtonEvent} (h : t.Accounted capacity (event :: waiting)) :
    { t with
      scheduler := t.scheduler.taken event { capacity, waiting }
      consumed := t.consumed ++ [event] }.Accounted capacity waiting := by
  obtain ⟨hqueue, hroom, hqueued, hconsumed⟩ := h
  refine ⟨rfl, Nat.le_of_succ_le hroom, ?_, hconsumed.write event⟩
  rw [← hqueued, List.append_assoc]
  rfl

/-- What is taken is the oldest event that waits. -/
theorem Accounted.of_takeInput? {event : ButtonEvent} {s : Scheduler (Logged σ)}
    (h : t.Accounted capacity waiting) (htake : t.scheduler.takeInput? = some (event, s)) :
    ∃ rest, waiting = event :: rest ∧
      s = t.scheduler.taken event { capacity, waiting := rest } := by
  cases waiting with
  | nil =>
    rw [Scheduler.takeInput?_of_nil h.queue rfl] at htake
    cases htake
  | cons oldest rest =>
    rw [Scheduler.takeInput?_of_cons h.queue rfl] at htake
    cases htake
    exact ⟨rest, rfl, rfl⟩

/-- Every move preserves the invariant. -/
theorem Accounted.move (h : t.Accounted capacity waiting) (hmove : t.Move next) :
    ∃ waiting', next.Accounted capacity waiting' := by
  cases hmove with
  | clone => exact ⟨waiting, { h with }⟩
  | send event =>
    obtain ⟨waiting', hsend⟩ := h.send _ event
    exact ⟨waiting', { hsend with }⟩
  | begin now =>
    rw [Scheduler.pinEpoch_eq]
    exact ⟨waiting, { h with }⟩
  | take _ htake =>
    obtain ⟨rest, rfl, rfl⟩ := h.of_takeInput? htake
    exact ⟨rest, h.take⟩
  | burst _ _ hrun =>
    obtain ⟨hqueue, hroom, hqueued, hconsumed⟩ := h
    exact ⟨waiting, hqueue, hroom, hqueued, hconsumed.runBurst hrun⟩
  | ignore => exact ⟨waiting, { h with }⟩
  | @report _ event _ sender _ _ =>
    obtain ⟨waiting', hsend⟩ := h.send sender event
    exact ⟨waiting', { hsend with }⟩
  | finish => exact ⟨waiting, { h with }⟩
  | proceed => exact ⟨waiting, { h with }⟩
  | yield => exact ⟨waiting, { h with }⟩
  | publish => exact ⟨waiting, { h with }⟩

theorem Accounted.reaches (h : t.Accounted capacity waiting)
    (hreaches : Relation.ReflTransGen Move t next) :
    ∃ waiting', next.Accounted capacity waiting' := by
  induction hreaches with
  | refl => exact ⟨waiting, h⟩
  | tail _ hmove ih =>
    obtain ⟨waiting', hbefore⟩ := ih
    exact hbefore.move hmove

/-- A new scheduler has driven every pin high, and nothing was queued yet. -/
theorem accounted_new {board : σ} {settings : Settings} {made : Scheduler (Logged σ)}
    (hnew : Scheduler.new { board } (.ofStrategy (.queued capacity)) settings = .ok made)
    (inner : Option Sender) (senders : List Sender) :
    ({ scheduler := { made with inner }, senders } : Traffic σ).Accounted capacity [] := by
  obtain ⟨-, rfl⟩ := Scheduler.new_ok hnew
  exact {
    queue := rfl
    room := Nat.zero_le capacity
    queued := rfl
    consumed := ⟨fun button => ButtonMap.get_const false button, rfl, rfl⟩ }

/-! ## What a move can do -/

/-- Only a drain takes input, and only taking input writes pins. -/
theorem Move.of_not_isDrain (hmove : t.Move next) (hdrain : t.moment.isDrain = false) :
    next.scheduler.board.writes = t.scheduler.board.writes ∧ next.consumed = t.consumed := by
  cases hmove with
  | begin now =>
    rw [Scheduler.pinEpoch_eq]
    exact ⟨rfl, rfl⟩
  | take htakes =>
    rw [hdrain] at htakes
    cases htakes
  | burst hmoment =>
    rw [hmoment] at hdrain
    cases hdrain
  | clone => exact ⟨rfl, rfl⟩
  | send => exact ⟨rfl, rfl⟩
  | ignore => exact ⟨rfl, rfl⟩
  | report => exact ⟨rfl, rfl⟩
  | finish => exact ⟨rfl, rfl⟩
  | proceed => exact ⟨rfl, rfl⟩
  | yield => exact ⟨rfl, rfl⟩
  | publish => exact ⟨rfl, rfl⟩

/-- If there is nothing to take, all that was queued was consumed. -/
theorem Accounted.consumed_eq (h : t.Accounted capacity waiting)
    (htake : t.scheduler.takeInput? = none) : t.consumed = t.queued := by
  cases waiting with
  | nil => rw [← h.queued, List.append_nil]
  | cons event waiting =>
    rw [Scheduler.takeInput?_of_cons h.queue rfl] at htake
    cases htake

/-- A burst runs and a frame is published only when all that was queued was consumed. -/
theorem Accounted.consumed_of_move (h : t.Accounted capacity waiting) (hmove : t.Move next)
    (hseen : next.scheduler.stats.bursts ≠ t.scheduler.stats.bursts ∨
      next.scheduler.published ≠ t.scheduler.published) : t.consumed = t.queued := by
  cases hmove with
  | begin now =>
    rw [Scheduler.pinEpoch_eq] at hseen
    simp at hseen
  | take _ htake =>
    obtain ⟨rest, rfl, rfl⟩ := h.of_takeInput? htake
    simp [Scheduler.taken] at hseen
  | burst _ hnone => exact h.consumed_eq hnone
  | publish _ hnone => exact h.consumed_eq hnone
  | clone => simp at hseen
  | send => simp [Traffic.send] at hseen
  | ignore => simp at hseen
  | report => simp [Traffic.send] at hseen
  | finish => simp at hseen
  | proceed => simp [Scheduler.polled] at hseen
  | yield => simp [Scheduler.polled] at hseen

/-! ## Steps -/

/-- A drain that nobody interferes with. -/
theorem Accounted.reaches_drain (h : t.Accounted capacity waiting)
    (hdrain : t.moment.isDrain = true) :
    ∃ drained, Relation.ReflTransGen Move t drained ∧
      drained.scheduler = t.scheduler.drainInput ∧ drained.scheduler.takeInput? = none ∧
      drained.moment = t.moment := by
  induction waiting generalizing t with
  | nil =>
    exact ⟨t, .refl, (Scheduler.drainInput_of_nil h.queue rfl).symm,
      Scheduler.takeInput?_of_nil h.queue rfl, rfl⟩
  | cons event waiting ih =>
    have htake := Scheduler.takeInput?_of_cons h.queue rfl
    obtain ⟨drained, hreaches, hscheduler, hnone, hmoment⟩ := ih h.take hdrain
    refine ⟨drained, .head (.take hdrain htake) hreaches, ?_, hnone, hmoment⟩
    rw [hscheduler, Scheduler.drainInput_of_cons h.queue rfl]

/-- The board's own reports, which nobody interferes with. -/
theorem reaches_reports {state : CpuState} {reports : List ButtonEvent}
    (hmoment : t.moment = .launched state reports) :
    ∃ told, Relation.ReflTransGen Move t told ∧
      told.scheduler = reports.foldl Scheduler.report t.scheduler ∧
      told.moment = .launched state [] := by
  induction reports generalizing t with
  | nil => exact ⟨t, .refl, rfl, hmoment⟩
  | cons event reports ih =>
    cases hinner : t.scheduler.inner with
    | none =>
      have hmove := Move.ignore hmoment hinner
      obtain ⟨told, hreaches, hscheduler, htold⟩ :=
        ih (t := { t with moment := .launched state reports }) rfl
      refine ⟨told, .head hmove hreaches, hscheduler.trans ?_, htold⟩
      rw [List.foldl_cons, Scheduler.report, hinner]
    | some sender =>
      have hmove := Move.report hmoment hinner
      obtain ⟨told, hreaches, hscheduler, htold⟩ := ih (t := { (t.send sender event).2 with
        scheduler.inner := some (t.send sender event).1
        moment := .launched state reports }) rfl
      refine ⟨told, .head hmove hreaches, hscheduler.trans ?_, htold⟩
      rw [List.foldl_cons, Scheduler.report, hinner]
      rfl

/-- The first half of a step that nobody interferes with. -/
theorem Accounted.reaches_launch (h : t.Accounted capacity waiting) (hmoment : t.moment = .between)
    (hphase : ∀ state, t.scheduler.phase ≠ .ended state) {now : Nat} {state : CpuState}
    {s : Scheduler (Logged σ)} (hlaunch : t.scheduler.launch now = .ok (state, s)) :
    ∃ launched, Relation.ReflTransGen Move t launched ∧ launched.scheduler = s ∧
      launched.moment = .launched state [] := by
  obtain ⟨_, burst, board, hbegan, hrun, rfl, rfl⟩ := Scheduler.launch_run hlaunch
  have hbegin := Move.begin now hmoment hphase
  obtain ⟨waiting', hbegun⟩ := h.move hbegin
  obtain ⟨drained, hdrain, hscheduler, hnone, hdraining⟩ := hbegun.reaches_drain rfl
  cases hbegan.trans hscheduler.symm
  have hburst := Move.burst hdraining hnone hrun
  obtain ⟨launched, hreports, htold, hlaunched⟩ := reaches_reports (t := { drained with
    scheduler.board := board
    scheduler.stats.bursts := drained.scheduler.stats.bursts + 1
    moment := .launched burst.state burst.reports }) rfl
  exact ⟨launched, .head hbegin (hdrain.trans (.head hburst hreports)), htold, hlaunched⟩

/-- The second half of a step that nobody interferes with. -/
theorem Accounted.reaches_settle (h : t.Accounted capacity waiting) {state : CpuState}
    (hmoment : t.moment = .launched state []) {now : Nat} {turn : Turn (Logged σ)}
    (hsettle : t.scheduler.settle state now = .ok turn) :
    ∃ settled, Relation.ReflTransGen Move t settled ∧ settled.scheduler = turn.scheduler ∧
      settled.moment = .between := by
  cases Scheduler.settle_ok hsettle with
  | ended hstate => exact ⟨_, .single (.finish hmoment hstate), rfl, rfl⟩
  | proceed glow pace hstate hglow hphase =>
    exact ⟨_, .single (.proceed hmoment hstate hglow hphase), rfl, rfl⟩
  | yield glow pace hstate hglow hphase =>
    have hyield := Move.yield hmoment hstate hglow hphase
    obtain ⟨waiting', hyielding⟩ := h.move hyield
    obtain ⟨drained, hdrain, hscheduler, hnone, hmoment'⟩ := hyielding.reaches_drain rfl
    refine ⟨_, .head hyield (hdrain.tail (.publish hmoment' hnone)), ?_, rfl⟩
    rw [hscheduler]
    rfl

/-- A step that nobody interferes with. -/
theorem Accounted.reaches_step (h : t.Accounted capacity waiting) (hmoment : t.moment = .between)
    {start finish : Nat} {turn : Turn (Logged σ)}
    (hstep : t.scheduler.step start finish = .ok turn) :
    ∃ next, Relation.ReflTransGen Move t next ∧ next.scheduler = turn.scheduler ∧
      next.moment = .between := by
  rcases Scheduler.step_ok hstep with ⟨state, -, rfl⟩ | ⟨hphase, state, s, hlaunch, hsettle⟩
  · exact ⟨t, .refl, rfl, hmoment⟩
  · obtain ⟨launched, hfirst, rfl, hlaunched⟩ := h.reaches_launch hmoment hphase hlaunch
    obtain ⟨waiting', h'⟩ := h.reaches hfirst
    obtain ⟨next, hsecond, hnext, hbetween⟩ := h'.reaches_settle hlaunched hsettle
    exact ⟨next, hfirst.trans hsecond, hnext, hbetween⟩

/-- What becomes of input that arrives at any moment. Let a scheduler with a queue be made, let any
    number of senders report to it, and let it step. What was answered `queued` is what was
    consumed, followed by what waits, in order. The pins were all driven high at the start, and
    since then by those consumed events that change the state of their button, in order, each to the
    opposite level of the state it tells; so many edges were counted. A button is pressed if the
    last consumed event of it says so; the levels of its pin alternate, and the last one is low if
    it is pressed. Only a drain consumes events and writes pins, and a burst runs, or a frame is
    published, only when all that was queued so far was consumed. A step that nobody interferes with
    is such a run. -/
theorem edges_reach_pins {board : σ} {settings : Settings} {made : Scheduler (Logged σ)}
    (hnew : Scheduler.new { board } (.ofStrategy (.queued capacity)) settings = .ok made)
    {inner : Option Sender} {senders : List Sender}
    (hreaches : Relation.ReflTransGen Move { scheduler := { made with inner }, senders } t) :
    (∃ waiting, t.scheduler.channel.queue = some { capacity, waiting } ∧
      waiting.length ≤ capacity ∧ t.consumed ++ waiting = t.queued) ∧
    t.scheduler.board.writes.toList = pullUps ++ (edges t.consumed).map ButtonEvent.pinWrite ∧
    t.scheduler.stats.edges = (edges t.consumed).length ∧
    (∀ button,
      t.scheduler.channel.lines.isPressed button = stateAfter false t.consumed button ∧
      (t.scheduler.board.levels button.pin).head? = some true ∧
      List.IsChain (· ≠ ·) (t.scheduler.board.levels button.pin) ∧
      (t.scheduler.board.levels button.pin).getLast? =
        some (!t.scheduler.channel.lines.isPressed button)) ∧
    (∀ next, t.Move next →
      (t.moment.isDrain = false → next.scheduler.board.writes = t.scheduler.board.writes ∧
        next.consumed = t.consumed) ∧
      (next.scheduler.stats.bursts ≠ t.scheduler.stats.bursts ∨
        next.scheduler.published ≠ t.scheduler.published → t.consumed = t.queued)) ∧
    (t.moment = .between → ∀ start finish turn, t.scheduler.step start finish = .ok turn →
      ∃ next, Relation.ReflTransGen Move t next ∧ next.scheduler = turn.scheduler ∧
        next.moment = .between) := by
  obtain ⟨waiting, h⟩ := (accounted_new hnew inner senders).reaches hreaches
  exact ⟨⟨waiting, h.queue, h.room, h.queued⟩, h.consumed.writes, h.consumed.count,
    fun button => ⟨h.consumed.lines button, h.consumed.levels_alternate button⟩,
    fun next hmove => ⟨hmove.of_not_isDrain, h.consumed_of_move hmove⟩,
    fun hmoment start finish turn hstep => h.reaches_step hmoment hstep⟩

/-- A board whose first burst reports a press of its own. -/
def pressing : ScriptedBoard where
  frequency := 1000
  width := 1
  height := 8
  cycle := 0
  grid := #[0]
  flags := {}
  bursts := [{ reports := [⟨.a, true⟩] }]

/-- A press that a sender and its clone both report is one edge. The press that is reported during
    the burst waits for the next drain. -/
theorem edges_reach_pins_clone :
    ∃ settings made t, Settings.ofMicros 1000 5 7000 14000 = .ok settings ∧
      Scheduler.new ({ board := pressing } : Logged ScriptedBoard)
        (.ofStrategy (.queued 2)) settings = .ok made ∧
      Relation.ReflTransGen Move { scheduler := { made with inner := some {} }, senders := [{}] }
        t ∧
      t.queued = [⟨.up, true⟩, ⟨.up, true⟩, ⟨.a, true⟩] ∧ t.consumed = [⟨.up, true⟩, ⟨.up, true⟩] ∧
      t.scheduler.board.writes.toList = pullUps ++ [(Button.up.pin, false)] := by
  obtain ⟨settings, made, t, hsettings, hnew, hreaches, hqueued, hconsumed⟩ :
      ∃ settings made t, Settings.ofMicros 1000 5 7000 14000 = .ok settings ∧
        Scheduler.new ({ board := pressing } : Logged ScriptedBoard)
          (.ofStrategy (.queued 2)) settings = .ok made ∧
        Relation.ReflTransGen Move { scheduler := { made with inner := some {} }, senders := [{}] }
          t ∧
        t.queued = [⟨.up, true⟩, ⟨.up, true⟩, ⟨.a, true⟩] ∧
        t.consumed = [⟨.up, true⟩, ⟨.up, true⟩] :=
    ⟨_, _, _, rfl, rfl, .head (.clone List.mem_cons_self) <|
      .head (.send (i := 0) ⟨.up, true⟩ rfl) <| .head (.send (i := 1) ⟨.up, true⟩ rfl) <|
      .head (.begin 0 rfl nofun) <| .head (.take rfl rfl) <| .head (.take rfl rfl) <|
      .head (.burst rfl rfl rfl) <| .head (.report rfl rfl) .refl, rfl, rfl⟩
  refine ⟨settings, made, t, hsettings, hnew, hreaches, hqueued, hconsumed, ?_⟩
  rw [(edges_reach_pins hnew hreaches).2.1, hconsumed]
  rfl

end Traffic

end Handheld
