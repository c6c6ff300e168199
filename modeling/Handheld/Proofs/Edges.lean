import Handheld.Board.Logged
import Handheld.Channel
import Mathlib.Data.List.Chain
import Mathlib.Tactic.Common

/-!
# Edges

Of a list of events some change nothing, since they tell of a button what it is anyway. The others
are *edges* (`edges`), and only they reach a pin. For each button the states that edges tell of
alternate (`isChain_states_edges`). Lines that follow events still do so after one more
(`isPressed_set`).

A drain takes the waiting events to the pins one after the other, and more of them may arrive
meanwhile. `Channel.take?` takes one; a drain that nobody interrupts is as many of these as there
are events (`Channel.drain_of_cons`, `Channel.drain_of_nil`). What has been taken shows in the lines
and in the log of a watched board (`Consumed`), and taking one more event preserves this
(`Consumed.write`).
-/

namespace Handheld

/-! ## Chains -/

/-- A chain goes on with what its last entry is related to. -/
theorem isChain_concat {α : Type} {R : α → α → Prop} {a x : α} {l : List α}
    (h : List.IsChain R (a :: l)) (hx : R (l.getLastD a) x) : List.IsChain R (a :: (l ++ [x])) := by
  rw [← List.cons_append]
  refine h.append (.singleton x) fun y hy z hz => ?_
  rw [List.getLast?_cons, ← List.getLastD_eq_getLast?, Option.mem_some_iff] at hy
  rw [List.head?_cons, Option.mem_some_iff] at hz
  rwa [← hy, ← hz]

/-- A chain that is cut in two goes on from the last entry of its first part. -/
theorem isChain_getLastD {α : Type} {R : α → α → Prop} {a : α} {l r : List α}
    (h : List.IsChain R (a :: (l ++ r))) : List.IsChain R (l.getLastD a :: r) := by
  induction l generalizing a with
  | nil => exact h
  | cons b l ih =>
    rw [List.cons_append, List.isChain_cons_cons] at h
    rw [List.getLastD_cons]
    exact ih h.2

/-! ## States -/

/-- The states that events tell of a button, in order. -/
def states (events : List ButtonEvent) (button : Button) : List Bool :=
  (events.filter (·.button = button)).map (·.pressed)

/-- The state of a button after events; `start` is the one before them. -/
def stateAfter (start : Bool) (events : List ButtonEvent) (button : Button) : Bool :=
  (states events button).getLastD start

/-- The edges among events that come after `earlier` ones: those that change the state of their
    button. Before all events every button is released. -/
def edgesAfter (earlier : List ButtonEvent) : List ButtonEvent → List ButtonEvent
  | [] => []
  | event :: events =>
    if stateAfter false earlier event.button = event.pressed then
      edgesAfter (earlier ++ [event]) events
    else event :: edgesAfter (earlier ++ [event]) events

/-- The edges among events. -/
def edges (events : List ButtonEvent) : List ButtonEvent := edgesAfter [] events

/-- The pin of an event's button, and the level that the event drives it to. -/
def ButtonEvent.pinWrite (event : ButtonEvent) : Pin × Bool := (event.button.pin, !event.pressed)

variable {earlier events later : List ButtonEvent} {event : ButtonEvent} {start : Bool}
  {button : Button}

theorem states_append (events later : List ButtonEvent) (button : Button) :
    states (events ++ later) button = states events button ++ states later button := by
  rw [states, List.filter_append, List.map_append]
  rfl

theorem states_concat (events : List ButtonEvent) (event : ButtonEvent) (button : Button) :
    states (events ++ [event]) button =
      states events button ++ if event.button = button then [event.pressed] else [] := by
  rw [states_append]
  congr 1
  by_cases h : event.button = button <;> simp [states, h]

/-- The state after two lists of events is told by the second one, if it tells of the button. -/
theorem stateAfter_append (start : Bool) (events later : List ButtonEvent) (button : Button) :
    stateAfter start (events ++ later) button =
      stateAfter (stateAfter start events button) later button := by
  simp only [stateAfter, states_append, List.getLastD_eq_getLast?, List.getLast?_append]
  cases (states later button).getLast? <;> rfl

theorem stateAfter_concat (start : Bool) (events : List ButtonEvent) (event : ButtonEvent)
    (button : Button) :
    stateAfter start (events ++ [event]) button =
      if event.button = button then event.pressed else stateAfter start events button := by
  rw [stateAfter, states_concat]
  split
  · exact List.getLastD_concat
  · rw [List.append_nil]
    rfl

/-- The state after events that tell the same of some buttons. -/
theorem stateAfter_map (start pressed : Bool) (buttons : List Button) (button : Button) :
    stateAfter start (buttons.map (⟨·, pressed⟩)) button =
      if button ∈ buttons then pressed else start := by
  induction buttons using List.reverseRecOn with
  | nil => rfl
  | append_singleton buttons last ih =>
    rw [List.map_append, List.map_singleton, stateAfter_concat, ih]
    by_cases h : last = button
    · simp [h]
    · simp [h, Ne.symm h]

theorem edgesAfter_append (earlier events later : List ButtonEvent) :
    edgesAfter earlier (events ++ later) =
      edgesAfter earlier events ++ edgesAfter (earlier ++ events) later := by
  induction events generalizing earlier with
  | nil => rw [List.append_nil]; rfl
  | cons event events ih =>
    rw [List.cons_append, edgesAfter, edgesAfter, ih]
    split <;> simp

theorem edges_concat (events : List ButtonEvent) (event : ButtonEvent) :
    edges (events ++ [event]) =
      edges events ++
        if stateAfter false events event.button = event.pressed then [] else [event] := by
  rw [edges, edgesAfter_append]
  rfl

/-- Events that tell the same of different buttons are edges if they tell something new of each. -/
theorem edgesAfter_map {pressed : Bool} {buttons : List Button} (hnodup : buttons.Nodup)
    (h : ∀ button ∈ buttons, stateAfter false earlier button ≠ pressed) :
    edgesAfter earlier (buttons.map (⟨·, pressed⟩)) = buttons.map (⟨·, pressed⟩) := by
  induction buttons generalizing earlier with
  | nil => rfl
  | cons button buttons ih =>
    obtain ⟨hnew, hnodup⟩ := List.nodup_cons.1 hnodup
    obtain ⟨hbutton, hbuttons⟩ := List.forall_mem_cons.1 h
    rw [List.map_cons, edgesAfter, if_neg hbutton, ih hnodup]
    intro other hother
    -- The first event tells nothing of the buttons after it.
    have hne : button ≠ other := fun heq => hnew (heq ▸ hother)
    rw [stateAfter_concat, if_neg hne]
    exact hbuttons other hother

/-- The edges tell as much of the last state of a button as all events do. -/
theorem stateAfter_edges (events : List ButtonEvent) (button : Button) :
    stateAfter false (edges events) button = stateAfter false events button := by
  induction events using List.reverseRecOn with
  | nil => rfl
  | append_singleton events event ih =>
    rw [edges_concat, stateAfter_concat]
    split
    · next hknown =>
      rw [List.append_nil, ih]
      split
      · next hbutton => rw [← hbutton, hknown]
      · rfl
    · rw [stateAfter_concat, ih]

/-- Edges of one button alternate, and the first one is a press. -/
theorem isChain_states_edges (events : List ButtonEvent) (button : Button) :
    List.IsChain (· ≠ ·) (false :: states (edges events) button) := by
  induction events using List.reverseRecOn with
  | nil => exact .singleton false
  | append_singleton events event ih =>
    rw [edges_concat]
    split
    · rwa [List.append_nil]
    · next hedge =>
      rw [states_concat]
      split
      · next hbutton =>
        refine isChain_concat ih ?_
        rw [← stateAfter_edges, hbutton] at hedge
        exact hedge
      · rwa [List.append_nil]

theorem edgesAfter_sublist (earlier events : List ButtonEvent) :
    (edgesAfter earlier events).Sublist events := by
  induction events generalizing earlier with
  | nil => exact .slnil
  | cons event events ih =>
    rw [edgesAfter]
    split
    · exact (ih _).cons event
    · exact (ih _).cons_cons event

/-- If all events are edges, the first one tells something new, and so do those after it. -/
theorem edgesAfter_cons_eq_self (h : edgesAfter earlier (event :: events) = event :: events) :
    stateAfter false earlier event.button ≠ event.pressed ∧
      edgesAfter (earlier ++ [event]) events = events := by
  rw [edgesAfter] at h
  split at h
  · have hle := (edgesAfter_sublist (earlier ++ [event]) events).length_le
    rw [h] at hle
    exact absurd hle (Nat.not_succ_le_self _)
  · next hnew => exact ⟨hnew, (List.cons.inj h).2⟩

/-- If all events are edges, the first ones are. -/
theorem edges_eq_self_of_append (h : edges (events ++ later) = events ++ later) :
    edges events = events := by
  have hfirst := edgesAfter_sublist [] events
  have hrest := edgesAfter_sublist ([] ++ events) later
  refine hfirst.eq_of_length ?_
  have hlength := congrArg List.length h
  rw [edges, edgesAfter_append, List.length_append, List.length_append] at hlength
  have := hfirst.length_le
  have := hrest.length_le
  omega

/-- Lines that follow events still do so once another one is written to them. -/
theorem isPressed_set {lines : Lines}
    (hlines : ∀ button, lines.isPressed button = stateAfter false events button)
    (event : ButtonEvent) (button : Button) :
    Lines.isPressed ⟨lines.pressed.set event.button event.pressed⟩ button =
      stateAfter false (events ++ [event]) button := by
  rw [stateAfter_concat, ← hlines, Lines.isPressed, ButtonMap.get_set]
  simp only [eq_comm (a := button)]
  rfl

/-! ## Taking events one by one -/

section Taking

variable {σ : Type} [Board σ] {lines : Lines} {board : σ} {channel : Channel} {queue : Queue}
  {waiting : List ButtonEvent}

/-- Write an event to its pin, with the number of edges that this made. -/
def Lines.write (lines : Lines) (board : σ) (event : ButtonEvent) : Nat × Lines × σ :=
  match lines.write? board event with
  | none => (0, lines, board)
  | some (lines, board) => (1, lines, board)

theorem Lines.writeAll_cons (lines : Lines) (board : σ) (event : ButtonEvent)
    (events : List ButtonEvent) :
    lines.writeAll board (event :: events) =
      let written := lines.write board event
      let rest := written.2.1.writeAll written.2.2 events
      (written.1 + rest.1, rest.2) := by
  rw [writeAll, write]
  cases lines.write? board event with
  | none => simp only [Nat.zero_add]
  | some written => simp only [Nat.add_comm]

/-- Take the oldest waiting event to its pin: the event, the number of edges that this made, and
    what is left. -/
def Channel.take? (channel : Channel) (board : σ) : Option (ButtonEvent × Nat × Channel × σ) :=
  match channel.queue with
  | none => none
  | some queue =>
    match queue.waiting with
    | [] => none
    | event :: waiting =>
      let (edges, lines, board) := channel.lines.write board event
      some (event, edges, { lines, queue := some { queue with waiting } }, board)

namespace Channel

theorem take?_of_nil (hqueue : channel.queue = some queue) (hwaiting : queue.waiting = []) :
    channel.take? board = none := by
  simp only [take?, hqueue, hwaiting]

theorem take?_of_cons (hqueue : channel.queue = some queue)
    (hwaiting : queue.waiting = event :: waiting) :
    channel.take? board =
      let written := channel.lines.write board event
      some (event, written.1, { lines := written.2.1, queue := some { queue with waiting } },
        written.2.2) := by
  simp only [take?, hqueue, hwaiting]

/-- A drain does nothing if nothing waits. -/
theorem drain_of_nil (hqueue : channel.queue = some queue) (hwaiting : queue.waiting = []) :
    channel.drain board = (0, channel, board) := by
  obtain ⟨lines, _⟩ := channel
  obtain ⟨capacity, _, isOpen⟩ := queue
  cases hqueue
  cases hwaiting
  rfl

/-- A drain takes the oldest event and goes on. -/
theorem drain_of_cons (hqueue : channel.queue = some queue)
    (hwaiting : queue.waiting = event :: waiting) :
    channel.drain board =
      let written := channel.lines.write board event
      let rest : Channel := { lines := written.2.1, queue := some { queue with waiting } }
      (written.1 + (rest.drain written.2.2).1, (rest.drain written.2.2).2) := by
  simp only [drain, hqueue, hwaiting, Lines.writeAll_cons]

end Channel

end Taking

/-! ## What has been taken -/

section Consumed

variable {σ : Type} [Board σ] {before : List (Pin × Bool)} {consumed : List ButtonEvent}
  {lines : Lines} {count : Nat} {board : Logged σ}

/-- What the lines and the log of a board are once the events `consumed` have been taken to the
    pins. The log began with the writes `before`, and so many edges were counted. -/
structure Consumed (before : List (Pin × Bool)) (consumed : List ButtonEvent) (lines : Lines)
    (count : Nat) (board : Logged σ) : Prop where
  lines : ∀ button, lines.isPressed button = stateAfter false consumed button
  writes : board.writes.toList = before ++ (edges consumed).map ButtonEvent.pinWrite
  count : count = (edges consumed).length

/-- One more event is taken to its pin. -/
theorem Consumed.write (h : Consumed before consumed lines count board) (event : ButtonEvent) :
    Consumed before (consumed ++ [event]) (lines.write board event).2.1
      (count + (lines.write board event).1) (lines.write board event).2.2 := by
  obtain ⟨hlines, hwrites, hcount⟩ := h
  have hedge := hlines event.button
  by_cases hknown : lines.isPressed event.button = event.pressed
  · -- Nothing happens, and the lines are as the event says already.
    have hwrite : lines.write board event = (0, lines, board) := by
      rw [Lines.write, Lines.write?, if_pos hknown]
    have hedges : edges (consumed ++ [event]) = edges consumed := by
      rw [edges_concat, if_pos (hedge ▸ hknown), List.append_nil]
    rw [hwrite]
    refine ⟨fun button => ?_, hedges ▸ hwrites, hedges ▸ hcount⟩
    rw [stateAfter_concat]
    split
    · next hbutton => rw [← hbutton, hknown]
    · exact hlines button
  · have hwrite : lines.write board event =
        (1, ⟨lines.pressed.set event.button event.pressed⟩,
          Board.drive board event.button.pin (!event.pressed)) := by
      rw [Lines.write, Lines.write?, if_neg hknown]
    have hedges : edges (consumed ++ [event]) = edges consumed ++ [event] := by
      rw [edges_concat, if_neg (hedge ▸ hknown)]
    rw [hwrite]
    refine ⟨fun button => ?_, ?_, ?_⟩
    · exact isPressed_set hlines event button
    · rw [hedges, List.map_append, ← List.append_assoc, ← hwrites]
      exact Array.toList_push
    · rw [hedges, List.length_append, hcount]
      rfl

end Consumed

end Handheld
