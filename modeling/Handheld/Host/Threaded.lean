import Handheld.Host
import Handheld.Host.Simulation

/-!
# The threaded host

The simulation has a thread of its own; the host's thread moves button events one way and frames the
other. It goes round: it polls the input and reports each event through its sender, then takes the
signals that wait. Several `frameReady` in one go still need only the newest frame. When the board
has ended, a frame that is still to be drawn is drawn before the host stops.

`Party` is whose turn it is. A turn of the host is what it does between two moments at which the
simulation can come in: a poll, one report, one look for a signal, one drawing. Everything that can
happen is thus a run over some list of parties; `run` takes them from a policy.
-/

namespace Handheld

/-- Where the host's thread stands. -/
inductive HostStage
  | polling
  /-- Reporting the events of the last poll. -/
  | reporting (events : List HostEvent)
  /-- Looking for signals; `redraw` tells whether a frame was announced. -/
  | listening (redraw : Bool)
  /-- About to draw the latest frame, and to stop after that if the board has ended. -/
  | drawing (ended : Option CpuState)
  /-- Waiting for the simulation's thread to finish. -/
  | joining (state : CpuState)
  | stopped (result : Except HostError Exit)
  deriving Repr

/-- The two threads. -/
inductive Party
  | simulation
  | host
  deriving DecidableEq, Repr

/-- A simulation and its host, side by side. -/
structure Threaded (σ ι : Type) where
  simulation : Simulation σ
  sender : Sender := {}
  input : ι
  album : Album := {}
  stage : HostStage := .polling
  /-- The polls made so far. -/
  polls : Nat := 0
  deriving Repr

namespace Threaded

variable {σ ι : Type}

/-- How many signals may wait. -/
def signalCapacity : Nat := 2

/-- A scheduler and an input, about to begin. -/
def start (scheduler : Scheduler σ) (input : ι) (album : Album := {}) : Threaded σ ι :=
  { simulation := { scheduler, signals := { capacity := signalCapacity } }, input, album }

/-- One turn of the host. -/
def hostTurn [Input ι] (pair : Threaded σ ι) : Threaded σ ι :=
  match pair.stage with
  | .polling =>
    let (polled, input) := Input.poll pair.input pair.simulation.wall
    { pair with
      input
      polls := pair.polls + 1
      stage :=
        match polled with
        | .error reason => .stopped (.error (.terminal reason))
        | .ok events => .reporting events }
  | .reporting [] => { pair with stage := .listening false }
  | .reporting (.quit :: _) => { pair with stage := .stopped (.ok .quit) }
  | .reporting (.button event :: events) =>
    let (_, sender, scheduler) := pair.simulation.scheduler.send pair.sender event
    { pair with sender, simulation.scheduler := scheduler, stage := .reporting events }
  | .listening redraw =>
    let (received, simulation) := pair.simulation.receive
    { pair with
      simulation
      stage :=
        match received with
        | .signal .frameReady => .listening true
        | .signal (.ended state) => if redraw then .drawing (some state) else .joining state
        | .empty => if redraw then .drawing none else .polling
        | .disconnected => .stopped (.error .simulationLost) }
  | .drawing ended =>
    match pair.album.draw pair.simulation.scheduler.published with
    | .error reason => { pair with stage := .stopped (.error (.terminal reason)) }
    | .ok album => { pair with album, stage := (ended.map HostStage.joining).getD .polling }
  | .joining state =>
    match pair.simulation.stage with
    | .finished _ => { pair with stage := .stopped (.ok (.ended state)) }
    | .failed _ => { pair with stage := .stopped (.error .simulationLost) }
    | _ => pair
  | .stopped _ => pair

/-- One turn of a party. -/
def turn [Board σ] [Input ι] (pair : Threaded σ ι) : Party → Threaded σ ι
  | .simulation => { pair with simulation := pair.simulation.turn }
  | .host => pair.hostTurn

/-- Turn about, once the host alone has polled a number of times. -/
def patient (polls : Nat) (pair : Threaded σ ι) (count : Nat) : Party :=
  if pair.polls < polls then .host else if count % 2 = 0 then .simulation else .host

/-- Turns until the host stops; the policy decides, by the state and the number of turns that are
    left, whose turn it is. `none` if `limit` turns were not enough. -/
def run [Board σ] [Input ι] (policy : Threaded σ ι → Nat → Party) (pair : Threaded σ ι) :
    (limit : Nat) → Option (Except HostError Exit × Threaded σ ι)
  | 0 => none
  | limit + 1 =>
    match pair.stage with
    | .stopped result => some (result, pair)
    | _ => run policy (pair.turn (policy pair limit)) limit

end Threaded

end Handheld
