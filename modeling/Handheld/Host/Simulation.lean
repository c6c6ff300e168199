import Handheld.Scheduler

/-!
# The simulation thread

A scheduler on a thread of its own steps until the board ends. At each frame it leaves the signal
`frameReady` in a bounded queue, if there is room: when the host has not picked up the last ones yet
there is no point in another, since it will draw the newest frame anyway. At the end it leaves
`ended`, and waits for room to do so.

What the thread does between two moments at which someone else can come in is one `turn`, so an
interleaving with another party is a list of whose turn it is. A queue of capacity zero holds
nothing: its one signal, `ended`, passes from hand to hand.
-/

namespace Handheld

/-- What the simulation tells its host. -/
inductive Signal
  | frameReady
  | ended (state : CpuState)
  deriving DecidableEq, Repr

/-- Signals on their way to the host, oldest first. -/
structure Signals where
  capacity : Nat
  waiting : List Signal := []
  /-- Whether the host still holds its end. -/
  isOpen : Bool := true
  deriving DecidableEq, Repr

/-- The queue with one more signal, if there is room and someone to read it. -/
def Signals.offer (signals : Signals) (signal : Signal) : Option Signals :=
  if signals.isOpen ∧ signals.waiting.length < signals.capacity then
    some { signals with waiting := signals.waiting ++ [signal] }
  else none

/-- The queue when the host lets go of its end. What waits is lost. -/
def Signals.close (signals : Signals) : Signals := { signals with waiting := [], isOpen := false }

/-- Where the thread stands. -/
inductive Stage
  /-- About to begin a step. -/
  | ready
  /-- In the middle of a step, after a burst that ended in `state`. -/
  | launched (state : CpuState)
  /-- About to tell of a frame that was just published. -/
  | announcing
  /-- About to tell that the board has ended. -/
  | closing (state : CpuState)
  | finished (state : CpuState)
  | failed (fault : Fault)
  deriving DecidableEq, Repr

/-- A scheduler on a thread of its own. -/
structure Simulation (σ : Type) where
  scheduler : Scheduler σ
  signals : Signals
  stage : Stage := .ready
  /-- The time on the wall. -/
  wall : Nat := 0
  deriving DecidableEq, Repr

/-- What the host gets when it looks for a signal. -/
inductive Received
  | signal (signal : Signal)
  | empty
  /-- Nothing waits and nothing more will come. -/
  | disconnected
  deriving DecidableEq, Repr

namespace Simulation

variable {σ : Type}

/-- Whether the board has ended or broken down, so that nothing more will run. -/
def isOver (sim : Simulation σ) : Bool :=
  match sim.stage with
  | .closing _ => true
  | .finished _ => true
  | .failed _ => true
  | _ => false

/-- One turn of the thread. A thread that waits for room, or that is over, stays as it is. -/
def turn [Board σ] (sim : Simulation σ) : Simulation σ :=
  match sim.stage with
  | .ready =>
    match sim.scheduler.phase with
    | .ended state => { sim with stage := .closing state }
    | _ =>
      match sim.scheduler.launch sim.wall with
      | .error fault => { sim with stage := .failed fault }
      | .ok (state, scheduler) => { sim with scheduler, stage := .launched state }
  | .launched state =>
    match sim.scheduler.settle state sim.wall with
    | .error fault => { sim with stage := .failed fault }
    | .ok turn =>
      { sim with
        scheduler := turn.scheduler
        wall := sim.wall + turn.slept
        stage :=
          match turn.outcome with
          | .proceed => .ready
          | .yield => .announcing
          | .ended state => .closing state }
  | .announcing =>
    { sim with signals := (sim.signals.offer .frameReady).getD sim.signals, stage := .ready }
  | .closing state =>
    if sim.signals.isOpen then
      match sim.signals.offer (.ended state) with
      | none => sim
      | some signals => { sim with signals, stage := .finished state }
    else { sim with stage := .finished state }
  | .finished _ => sim
  | .failed _ => sim

/-- Look for a signal, without waiting for one. -/
def receive (sim : Simulation σ) : Received × Simulation σ :=
  match sim.signals.waiting with
  | signal :: waiting => (.signal signal, { sim with signals.waiting := waiting })
  | [] =>
    match sim.stage with
    | .closing state =>
      if sim.signals.capacity = 0 then
        (.signal (.ended state), { sim with stage := .finished state })
      else (.empty, sim)
    | .finished _ => (.disconnected, sim)
    | .failed _ => (.disconnected, sim)
    | _ => (.empty, sim)

/-- Turns until the board has ended or broken down, with no one reading; `none` if `limit` turns
    were not enough. -/
def run [Board σ] (sim : Simulation σ) : (limit : Nat) → Option (Simulation σ)
  | 0 => none
  | limit + 1 => if sim.isOver then some sim else sim.turn.run limit

/-- Look for a signal after each of a number of turns, up to the last signal there is. -/
def readOut [Board σ] (sim : Simulation σ) : (turns : Nat) → List Signal × Simulation σ
  | 0 => ([], sim)
  | turns + 1 =>
    match sim.turn.receive with
    | (.signal signal, sim) =>
      let (signals, sim) := sim.readOut turns
      (signal :: signals, sim)
    | (.empty, sim) => sim.readOut turns
    | (.disconnected, sim) => ([], sim)

end Simulation

end Handheld
