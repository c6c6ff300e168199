import Handheld.Board

/-!
# From the keyboard to the pins

Button events reach the pins of the board in one of two ways.

* *Inline*: the player's side and the simulation take turns, so an event is written to its pin at
  once (`Channel.notify`).
* *Queued*: they run side by side. The player's side holds a `Sender`, events wait in a bounded
  `Queue`, and the simulation drains them between bursts, oldest first (`Channel.drain`).

Both debounce: telling a side the state that it already knows does nothing, so the board never sees
the same edge twice. A sender never waits. If the queue is full the event is dropped and counted,
and the sender's knowledge of the button stays as it was, so that the next report of the same
state is tried again.
-/

namespace Handheld

variable {σ : Type}

/-- The simulated side of the buttons: which of them the board sees pressed. -/
structure Lines where
  pressed : ButtonMap Bool := .const false
  deriving DecidableEq, Repr

namespace Lines

/-- Whether the board sees a button pressed. -/
def isPressed (lines : Lines) (button : Button) : Bool := lines.pressed.get button

/-- The buttons the board sees pressed, in index order. -/
def toList (lines : Lines) : List Button := Button.all.filter lines.isPressed

/-- Drive every button's pin to the level of its state, in index order. -/
def pullUp [Board σ] (lines : Lines) (board : σ) : σ :=
  Button.all.foldl (fun board button => Board.drive board button.pin (!lines.isPressed button)) board

/-- Write an event to its pin; `none` if the button is in that state already. -/
def write? [Board σ] (lines : Lines) (board : σ) (event : ButtonEvent) : Option (Lines × σ) :=
  if lines.isPressed event.button = event.pressed then none
  else some (⟨lines.pressed.set event.button event.pressed⟩,
    Board.drive board event.button.pin (!event.pressed))

/-- Write events to their pins, in order, with the number of those that were edges. -/
def writeAll [Board σ] (lines : Lines) (board : σ) : List ButtonEvent → Nat × Lines × σ
  | [] => (0, lines, board)
  | event :: events =>
    match lines.write? board event with
    | none => lines.writeAll board events
    | some (lines, board) =>
      let (edges, lines, board) := lines.writeAll board events
      (edges + 1, lines, board)

end Lines

/-- What became of a reported event. -/
inductive Notice
  /-- The button was known to be in that state. -/
  | unchanged
  /-- The event was written to its pin. -/
  | applied
  /-- The event waits in the queue. -/
  | queued
  /-- There was no room, or no one to take it. -/
  | dropped
  deriving DecidableEq, Repr

/-- Events on their way to the simulation, oldest first. -/
structure Queue where
  capacity : Nat
  waiting : List ButtonEvent := []
  /-- Whether the simulation still holds its end. -/
  isOpen : Bool := true
  deriving DecidableEq, Repr

namespace Queue

/-- Whether another event can wait. A queue of capacity zero is always full. -/
def hasRoom (queue : Queue) : Bool := decide (queue.waiting.length < queue.capacity)

/-- The queue with one more event at its end. -/
def push (queue : Queue) (event : ButtonEvent) : Queue :=
  { queue with waiting := queue.waiting ++ [event] }

end Queue

/-- The player's end of a queue. Several senders may share one queue; each has its own knowledge of
    the buttons and its own count of dropped events. -/
structure Sender where
  /-- The state of each button that was last handed to the queue. -/
  known : ButtonMap Bool := .const false
  dropped : Nat := 0
  deriving DecidableEq, Repr

/-- Report an event to a queue. -/
def Sender.notify (sender : Sender) (queue : Queue) (event : ButtonEvent) :
    Notice × Sender × Queue :=
  if sender.known.get event.button = event.pressed then (.unchanged, sender, queue)
  else if !queue.isOpen then (.dropped, sender, queue)
  else if queue.hasRoom then
    (.queued, { sender with known := sender.known.set event.button event.pressed },
      queue.push event)
  else (.dropped, { sender with dropped := sender.dropped + 1 }, queue)

/-- How events are to be delivered, chosen once at the start. -/
inductive Strategy
  | inline
  | queued (capacity : Nat)
  deriving DecidableEq, Repr

/-- The simulation's end: the lines and, if delivery is queued, the queue that feeds them. -/
structure Channel where
  lines : Lines := {}
  queue : Option Queue := none
  deriving DecidableEq, Repr

namespace Channel

/-- A channel for a way of delivery. -/
def ofStrategy : Strategy → Channel
  | .inline => {}
  | .queued capacity => { queue := some { capacity } }

/-- Whether events wait in a queue. -/
def isQueued (channel : Channel) : Bool := channel.queue.isSome

/-- Deliver an event inline. This is meant for a channel without a queue; with one, events are
    reported through a sender. Only a build for debugging makes sure of that. Here the queue is not
    looked at, as in any other build. -/
def notify [Board σ] (channel : Channel) (board : σ) (event : ButtonEvent) :
    Notice × Channel × σ :=
  match channel.lines.write? board event with
  | none => (.unchanged, channel, board)
  | some (lines, board) => (.applied, { channel with lines }, board)

/-- Report an event through a sender. Without a queue there is no one to take it. -/
def send (channel : Channel) (sender : Sender) (event : ButtonEvent) : Notice × Sender × Channel :=
  match channel.queue with
  | none => (.dropped, sender, channel)
  | some queue =>
    let (notice, sender, queue) := sender.notify queue event
    (notice, sender, { channel with queue := some queue })

/-- Take every waiting event to the pins, with the number of those that were edges. -/
def drain [Board σ] (channel : Channel) (board : σ) : Nat × Channel × σ :=
  match channel.queue with
  | none => (0, channel, board)
  | some queue =>
    let (edges, lines, board) := channel.lines.writeAll board queue.waiting
    (edges, { lines, queue := some { queue with waiting := [] } }, board)

/-- The simulation lets go of its end: nothing waits any more and nothing more is taken. -/
def close (channel : Channel) : Channel :=
  { channel with
    queue := channel.queue.map fun queue => { queue with waiting := [], isOpen := false } }

end Channel

end Handheld
