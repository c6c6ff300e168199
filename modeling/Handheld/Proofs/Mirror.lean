import Handheld.Proofs.Edges
import Handheld.Proofs.Step

/-!
# What one sender knows

A queue that is fed by a single sender, with its two ends in two hands: one reports events, the
other takes them to the pins, and neither waits for the other. `Link` holds both ends with what has
passed between them, and a run is any sequence of actions of the two (`Link.run`).

The sender debounces by what it has handed to the queue, the other end by its lines. The two are
never at odds (`Link.Agrees`): what the sender knows is what the lines will show once all that waits
has been taken. So no event is handed over that is not an edge, and none is lost but those that were
answered `dropped`. Reports and takings preserve this (`Agrees.notify`, `Agrees.take`), so that it
holds at each moment of every run (`Link.ends_agree`).
-/

namespace Handheld

variable {σ : Type}

/-! ## Answers -/

/-- The events that were answered `queued`, in order. -/
def accepted (answers : List (ButtonEvent × Notice)) : List ButtonEvent :=
  (answers.filter (·.2 = .queued)).map (·.1)

theorem accepted_concat (answers : List (ButtonEvent × Notice)) (event : ButtonEvent)
    (notice : Notice) :
    accepted (answers ++ [(event, notice)]) =
      accepted answers ++ if notice = .queued then [event] else [] := by
  rw [accepted, List.filter_append, List.map_append]
  by_cases h : notice = .queued <;> simp [accepted, h]

/-! ## Links -/

/-- The two ends of a queue with one sender, and what has passed between them. -/
structure Link (σ : Type) where
  sender : Sender := {}
  channel : Channel
  board : Logged σ
  /-- What was reported and what it was answered, oldest first. -/
  answers : List (ButtonEvent × Notice) := []
  /-- What was taken to the pins, oldest first. -/
  taken : List ButtonEvent := []
  /-- The edges that the takings have counted. -/
  counted : Nat := 0

namespace Link

/-- A new queue, with its sender and a board whose pins were not written yet. -/
def start (capacity : Nat) (board : σ) : Link σ :=
  { channel := .ofStrategy (.queued capacity), board := { board } }

/-- A report. -/
def notify (link : Link σ) (event : ButtonEvent) : Link σ :=
  let (notice, sender, channel) := link.channel.send link.sender event
  { link with sender, channel, answers := link.answers ++ [(event, notice)] }

/-- The simulation's end is gone. -/
def close (link : Link σ) : Link σ := { link with channel := link.channel.close }

section Actions

variable [Board σ]

/-- One turn of a drain, which takes the oldest event that waits. -/
def take (link : Link σ) : Link σ :=
  match link.channel.take? link.board with
  | none => link
  | some (event, edges, channel, board) =>
    { link with channel, board, taken := link.taken ++ [event], counted := link.counted + edges }

/-- A drain that nobody interrupts. -/
def drain (link : Link σ) : Link σ :=
  let (edges, channel, board) := link.channel.drain link.board
  let waiting := (link.channel.queue.map Queue.waiting).getD []
  { link with channel, board, taken := link.taken ++ waiting, counted := link.counted + edges }

/-- What the two ends can do. -/
inductive Action
  | notify (event : ButtonEvent)
  | take
  | drain

/-- One action. -/
def act (link : Link σ) : Action → Link σ
  | .notify event => link.notify event
  | .take => link.take
  | .drain => link.drain

/-- Any number of actions of the two ends. -/
def run (link : Link σ) (actions : List Action) : Link σ := actions.foldl act link

end Actions

variable {link : Link σ} {capacity : Nat} {waiting : List ButtonEvent} {event : ButtonEvent}
  {queue : Queue}

/-! ## The invariant -/

/-- The two ends agree, with `waiting` between them: all that was accepted are edges, some of which
    have been taken while the others wait; the sender knows of all of them. -/
structure Agrees (link : Link σ) (capacity : Nat) (waiting : List ButtonEvent) : Prop where
  queue : link.channel.queue = some { capacity, waiting }
  room : waiting.length ≤ capacity
  taken : link.taken ++ waiting = accepted link.answers
  edges : edges (accepted link.answers) = accepted link.answers
  known : ∀ button,
    link.sender.known.get button = stateAfter false (accepted link.answers) button
  consumed : Consumed [] link.taken link.channel.lines link.counted link.board

theorem agrees_start (capacity : Nat) (board : σ) : (start capacity board).Agrees capacity [] where
  queue := rfl
  room := Nat.zero_le capacity
  taken := rfl
  edges := rfl
  known button := ButtonMap.get_const false button
  consumed := ⟨fun button => ButtonMap.get_const false button, rfl, rfl⟩

/-- A report that is handed to the queue is an edge; any other leaves the queue as it is. -/
theorem Agrees.notify (h : link.Agrees capacity waiting) (event : ButtonEvent) :
    ∃ waiting', (link.notify event).Agrees capacity waiting' := by
  rw [Link.notify, Channel.send_eq h.queue]
  obtain ⟨hqueue, hroom, htaken, hedges, hknown, hconsumed⟩ := h
  by_cases hnew : link.sender.known.get event.button = event.pressed
  · rw [if_pos hnew]
    refine ⟨waiting, hqueue, hroom, ?_, ?_, ?_, hconsumed⟩
    all_goals simpa [accepted_concat]
  · by_cases hfree : waiting.length < capacity
    · have haccepted : accepted (link.answers ++ [(event, .queued)]) =
          accepted link.answers ++ [event] := accepted_concat ..
      rw [if_neg hnew, if_pos hfree]
      refine ⟨waiting ++ [event], rfl, ?_, ?_, ?_, fun button => ?_, hconsumed⟩
      · rw [List.length_append]
        exact hfree
      · rw [haccepted, ← htaken, List.append_assoc]
      · rw [haccepted, edges_concat, if_neg (hknown event.button ▸ hnew), hedges]
      · rw [haccepted, stateAfter_concat, ButtonMap.get_set]
        simp only [eq_comm (a := button)]
        split
        · rfl
        · exact hknown button
    · rw [if_neg hnew, if_neg hfree]
      refine ⟨waiting, hqueue, hroom, ?_, ?_, ?_, hconsumed⟩
      all_goals simpa [accepted_concat]

/-! ## What follows -/

/-- What was taken are edges. -/
theorem Agrees.edges_taken (h : link.Agrees capacity waiting) :
    Handheld.edges link.taken = link.taken := by
  have hedges : Handheld.edges (link.taken ++ waiting) = link.taken ++ waiting := by
    rw [h.taken, h.edges]
  exact edges_eq_self_of_append hedges

/-- So the takings have counted every event taken. -/
theorem Agrees.counted_eq (h : link.Agrees capacity waiting) :
    link.counted = link.taken.length := by
  rw [h.consumed.count, h.edges_taken]

/-- What the sender knows of a button is what the last event says that waits for it, or else what
    its line shows. -/
theorem Agrees.known_eq (h : link.Agrees capacity waiting) (button : Button) :
    link.sender.known.get button =
      stateAfter (link.channel.lines.isPressed button) waiting button := by
  rw [h.known, ← h.taken, stateAfter_append, h.consumed.lines]

/-- The events of a button that wait alternate, and the first of them changes its line. -/
theorem Agrees.isChain_waiting (h : link.Agrees capacity waiting) (button : Button) :
    List.IsChain (· ≠ ·) (link.channel.lines.isPressed button :: states waiting button) := by
  have hchain := isChain_states_edges (accepted link.answers) button
  rw [h.edges, ← h.taken, states_append] at hchain
  rw [h.consumed.lines]
  exact isChain_getLastD hchain

/-- The pins have been told of what was taken, and will be told of what waits. -/
theorem Agrees.writes_eq (h : link.Agrees capacity waiting) :
    link.board.writes.toList ++ waiting.map ButtonEvent.pinWrite =
      (accepted link.answers).map ButtonEvent.pinWrite := by
  rw [h.consumed.writes, h.edges_taken, List.nil_append, ← List.map_append, h.taken]

/-! ## Runs -/

section Runs

variable [Board σ]

/-- A drain is over when nothing waits. -/
theorem drain_of_nil (hqueue : link.channel.queue = some queue) (hwaiting : queue.waiting = []) :
    link.drain = link := by
  rw [drain, Channel.drain_of_nil hqueue hwaiting, hqueue, Option.map_some, hwaiting]
  simp

/-- Until then it takes one event after the other. -/
theorem drain_of_cons (hqueue : link.channel.queue = some queue)
    (hwaiting : queue.waiting = event :: waiting) : link.drain = link.take.drain := by
  rw [take, Channel.take?_of_cons hqueue hwaiting, drain, Channel.drain_of_cons hqueue hwaiting,
    hqueue, Option.map_some, hwaiting]
  simp [drain, Nat.add_assoc]

/-- The oldest event moves from those that wait to those that were taken. -/
theorem Agrees.take (h : link.Agrees capacity (event :: waiting)) :
    link.take.Agrees capacity waiting := by
  obtain ⟨hqueue, hroom, htaken, hedges, hknown, hconsumed⟩ := h
  rw [Link.take, Channel.take?_of_cons hqueue rfl]
  refine ⟨rfl, Nat.le_of_succ_le hroom, ?_, hedges, hknown, hconsumed.write event⟩
  rw [← htaken, List.append_assoc]
  rfl

/-- If nothing waits, taking does nothing. -/
theorem Agrees.take_nil (h : link.Agrees capacity []) : link.take = link := by
  rw [Link.take, Channel.take?_of_nil h.queue rfl]

/-- After a drain nothing waits. -/
theorem Agrees.drain (h : link.Agrees capacity waiting) : link.drain.Agrees capacity [] := by
  induction waiting generalizing link with
  | nil =>
    rw [drain_of_nil h.queue rfl]
    exact h
  | cons event waiting ih =>
    rw [drain_of_cons h.queue rfl]
    exact ih h.take

/-- Every action preserves the agreement. -/
theorem Agrees.act (h : link.Agrees capacity waiting) (action : Action) :
    ∃ waiting', (link.act action).Agrees capacity waiting' := by
  cases action with
  | notify event => exact h.notify event
  | take =>
    cases waiting with
    | nil => exact ⟨[], by rw [Link.act, h.take_nil]; exact h⟩
    | cons event waiting => exact ⟨waiting, h.take⟩
  | drain => exact ⟨[], h.drain⟩

theorem Agrees.run (h : link.Agrees capacity waiting) (actions : List Action) :
    ∃ waiting', (link.run actions).Agrees capacity waiting' := by
  induction actions generalizing link waiting with
  | nil => exact ⟨waiting, h⟩
  | cons action actions ih =>
    obtain ⟨waiting', hnext⟩ := h.act action
    exact ih hnext

/-- A drain counts every event that it takes. -/
theorem Agrees.drain_count (h : link.Agrees capacity waiting) :
    (link.channel.drain link.board).1 = waiting.length := by
  have hbefore := h.counted_eq
  have hafter : link.counted + (link.channel.drain link.board).1 =
      (link.taken ++ ((link.channel.queue.map Queue.waiting).getD [])).length := h.drain.counted_eq
  rw [h.queue, List.length_append] at hafter
  simp only [Option.map_some, Option.getD_some] at hafter
  omega

/-- Once the simulation's end is gone, no report changes anything; those that would are answered
    `dropped`, but are not counted. -/
theorem run_notify_of_closed (hqueue : link.channel.queue = some queue)
    (hclosed : queue.isOpen = false) (later : List ButtonEvent) :
    link.run (later.map .notify) =
      { link with
        answers := link.answers ++ later.map fun event =>
          (event, if link.sender.known.get event.button = event.pressed then .unchanged
            else .dropped) } := by
  induction later generalizing link with
  | nil => simp [run]
  | cons event later ih =>
    have hnotify : link.notify event =
        { link with
          answers := link.answers ++
            [(event, if link.sender.known.get event.button = event.pressed then .unchanged
              else .dropped)] } := by
      obtain ⟨sender, ⟨lines, _⟩, _⟩ := link
      cases hqueue
      simp only [Link.notify, Channel.send, Sender.notify, hclosed]
      split <;> rfl
    have hnext : (link.notify event).channel.queue = some queue := by rw [hnotify, hqueue]
    rw [List.map_cons, List.map_cons, run, List.foldl_cons]
    refine (ih hnext).trans ?_
    rw [hnotify, List.append_assoc]
    rfl

/-- No edge is lost or doubled between a single sender and the lines, whatever the two ends do and
    when. At each moment the queue is within its capacity. What the sender knows of a button is what
    the last event says that waits for it, or else what its line shows; the events of a button that
    wait alternate, and the first of them changes the line, so that a drain counts as many edges as
    it takes events. What was taken, followed by what waits, is what was accepted, and so are the
    pins' writes so far, followed by those of what waits. A report that tells what the sender knows
    changes nothing; any other is accepted if there is room, and else it is dropped, and only
    counted. When the simulation's end is gone, not even that. -/
theorem ends_agree (capacity : Nat) (board : σ) (actions : List Action) :
    let link := (start capacity board).run actions
    ∃ waiting, link.channel.queue = some { capacity, waiting } ∧ waiting.length ≤ capacity ∧
      (∀ button,
        link.sender.known.get button =
          stateAfter (link.channel.lines.isPressed button) waiting button ∧
        List.IsChain (· ≠ ·) (link.channel.lines.isPressed button :: states waiting button)) ∧
      (link.channel.drain link.board).1 = waiting.length ∧ link.counted = link.taken.length ∧
      link.taken ++ waiting = accepted link.answers ∧
      link.board.writes.toList ++ waiting.map ButtonEvent.pinWrite =
        (accepted link.answers).map ButtonEvent.pinWrite ∧
      (∀ event, link.channel.send link.sender event =
        if link.sender.known.get event.button = event.pressed then
          (.unchanged, link.sender, link.channel)
        else if waiting.length < capacity then
          (.queued, { link.sender with known := link.sender.known.set event.button event.pressed },
            { link.channel with queue := some { capacity, waiting := waiting ++ [event] } })
        else
          (.dropped, { link.sender with dropped := link.sender.dropped + 1 }, link.channel)) ∧
      ∀ later : List ButtonEvent,
        (link.close.run (later.map .notify)).sender = link.sender ∧
        (link.close.run (later.map .notify)).answers =
          link.answers ++ later.map fun event =>
            (event, if link.sender.known.get event.button = event.pressed then .unchanged
              else .dropped) := by
  intro link
  obtain ⟨waiting, h⟩ : ∃ waiting, link.Agrees capacity waiting :=
    (agrees_start capacity board).run actions
  refine ⟨waiting, h.queue, h.room, fun button => ⟨h.known_eq button, h.isChain_waiting button⟩,
    h.drain_count, h.counted_eq, h.taken, h.writes_eq,
    Channel.send_eq h.queue link.sender, fun later => ?_⟩
  have hclosed : link.close.channel.queue = some { capacity, waiting := [], isOpen := false } := by
    rw [close, Channel.close, h.queue]
    rfl
  rw [run_notify_of_closed hclosed rfl]
  exact ⟨rfl, rfl⟩

end Runs

end Link

end Handheld
