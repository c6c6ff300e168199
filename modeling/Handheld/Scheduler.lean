import Handheld.Channel
import Handheld.Frame
import Handheld.Settings
import Handheld.Timer

/-!
# The scheduler

Runs the board in bursts and keeps it honest against the wall. A step (`Scheduler.step`) is made of
two halves, between which other parties may report input:

* `launch` takes the waiting input to the pins and runs one burst;
* `settle` says how long to sleep for the wall to catch up, and looks at the two timers. The sampling
  timer samples the panel into the afterglow; the redraw timer asks for a yield, at which the input
  that arrived meanwhile is taken to the pins and a frame is published.

A burst that ends the program fires no timer, however late; from then on nothing changes any more.

Wall time enters as the readings of a clock, in nanoseconds, and leaves as the time to sleep. The
first throttled step makes its reading the epoch, to which cycle zero is pinned. Nothing else
depends on the wall. A loop over steps (`Scheduler.idle`) has a wall of its own, on which computing
takes no time and sleeping takes exactly as long as asked for.

Cycles, wall times and the counts of what has happened are numbers without an upper end, as in
`Timer`, where the console has words of 64 bits. Only the conversions between cycles and times,
whose operands the player may choose, keep to the words (`Clock`).
-/

namespace Handheld

/-- What a scheduler is about. -/
inductive Phase
  | running
  /-- A redraw was asked for and its frame is still to be published. -/
  | yieldPending
  | ended (state : CpuState)
  deriving DecidableEq, Repr

/-- What a step ended with. -/
inductive Outcome
  | proceed
  /-- A frame is ready; the host should draw it and look at its input. -/
  | yield
  | ended (state : CpuState)
  deriving DecidableEq, Repr

/-- How often each thing has happened. -/
structure Stats where
  bursts : Nat := 0
  samples : Nat := 0
  redraws : Nat := 0
  /-- The edges that reached a pin. -/
  edges : Nat := 0
  deriving DecidableEq, Repr

/-- A board with all that runs it. -/
structure Scheduler (σ : Type) where
  board : σ
  channel : Channel
  /-- The sender through which the board's own reports are taken, if they are. -/
  inner : Option Sender := none
  settings : Settings
  afterglow : Afterglow
  sampling : Timer
  redraw : Timer
  /-- The wall time of cycle zero, once it is pinned. -/
  epoch : Option Nat := none
  /-- The latest frame published. -/
  published : Frame := {}
  phase : Phase := .running
  stats : Stats := {}
  deriving DecidableEq, Repr

/-- What came of a step. -/
structure Turn (σ : Type) where
  outcome : Outcome
  /-- The standing against the wall, if it was looked at. -/
  pace : Option Pace
  scheduler : Scheduler σ
  deriving DecidableEq, Repr

/-- The nanoseconds slept in a step. -/
def Turn.slept {σ : Type} (turn : Turn σ) : Nat := (turn.pace.map Pace.nanos).getD 0

namespace Scheduler

variable {σ : Type} [Board σ]

/-- A scheduler for a board, with every button's pin driven to its level and both timers started.
    The board must run at the frequency that paces it. -/
def new (board : σ) (channel : Channel) (settings : Settings) :
    Except SettingsError (Scheduler σ) :=
  if Board.frequency board = settings.clock.frequency then
    let now := Board.cycle board
    .ok {
      board := channel.lines.pullUp board
      channel
      settings
      afterglow := .dark (Board.size board).1 (Board.size board).2
      sampling := .start now settings.samplingPeriod .sampling settings.samplingPeriod_pos
      redraw := .start now settings.redrawPeriod .redraw settings.redrawPeriod_pos }
  else .error (.frequencyMismatch (Board.frequency board) settings.clock.frequency)

/-- Pin cycle zero to the wall, if simulated time is held back to it and this was not done yet. -/
def pinEpoch (s : Scheduler σ) (now : Nat) : Scheduler σ :=
  if s.settings.throttle && s.epoch.isNone then { s with epoch := some now } else s

/-- Take the waiting input to the pins. -/
def drainInput (s : Scheduler σ) : Scheduler σ :=
  let (edges, channel, board) := s.channel.drain s.board
  { s with board, channel, stats.edges := s.stats.edges + edges }

/-- Report an event of the board's own. -/
def report (s : Scheduler σ) (event : ButtonEvent) : Scheduler σ :=
  match s.inner with
  | none => s
  | some sender =>
    let (_, sender, channel) := s.channel.send sender event
    { s with inner := some sender, channel }

/-- The first half of a step, at the wall time `now`: take the waiting input to the pins and run a
    burst. -/
def launch (s : Scheduler σ) (now : Nat) : Except Fault (CpuState × Scheduler σ) := do
  let s := (s.pinEpoch now).drainInput
  let (burst, board) ← Board.runBurst s.board s.settings.burst
  let s := { s with board, stats.bursts := s.stats.bursts + 1 }
  return (burst.state, burst.reports.foldl report s)

/-- Sample the panel if its timer is due. -/
def sampleIfDue (s : Scheduler σ) (cycle : Nat) : Except Fault (Scheduler σ) :=
  if s.sampling.isDue cycle then do
    let afterglow ← s.afterglow.sample (Board.grid s.board) s.settings.decay s.settings.increase
    return { s with
      afterglow
      sampling := s.sampling.reschedule cycle
      stats.samples := s.stats.samples + 1 }
  else .ok s

/-- Ask for a yield if the redraw timer is due. -/
def redrawIfDue (s : Scheduler σ) (cycle : Nat) : Scheduler σ :=
  if s.redraw.isDue cycle then
    { s with
      redraw := s.redraw.reschedule cycle
      stats.redraws := s.stats.redraws + 1
      phase := .yieldPending }
  else s

/-- Publish the afterglow with the board's present flags. -/
def publish (s : Scheduler σ) : Scheduler σ :=
  { s with published := s.published.publish s.afterglow (Board.flags s.board) }

/-- The second half of a step, at the wall time `now`, after a burst that ended in `state`. -/
def settle (s : Scheduler σ) (state : CpuState) (now : Nat) : Except Fault (Turn σ) :=
  if state.isTerminal then
    .ok { outcome := .ended state, pace := none, scheduler := { s with phase := .ended state } }
  else do
    let cycle := Board.cycle s.board
    let pace := s.epoch.map fun epoch => s.settings.clock.pace epoch cycle now
    let s := (← s.sampleIfDue cycle).redrawIfDue cycle
    if s.phase = .yieldPending then
      return { outcome := .yield, pace, scheduler := { s.drainInput.publish with phase := .running } }
    else
      return { outcome := .proceed, pace, scheduler := s }

/-- Run one burst and the timers that it made due. The wall is read at the start and again when the
    burst is over. -/
def step (s : Scheduler σ) (start finish : Nat) : Except Fault (Turn σ) :=
  match s.phase with
  | .ended state => .ok { outcome := .ended state, pace := none, scheduler := s }
  | _ => do
    let (state, s) ← s.launch start
    s.settle state finish

/-- Deliver an event inline. -/
def input (s : Scheduler σ) (event : ButtonEvent) : Notice × Scheduler σ :=
  let (notice, channel, board) := s.channel.notify s.board event
  let applied := if notice = .applied then 1 else 0
  (notice, { s with board, channel, stats.edges := s.stats.edges + applied })

omit [Board σ] in
/-- Report an event through a sender of the player's side. -/
def send (s : Scheduler σ) (sender : Sender) (event : ButtonEvent) :
    Notice × Sender × Scheduler σ :=
  let (notice, sender, channel) := s.channel.send sender event
  (notice, sender, { s with channel })

/-- Where a run of steps has come to. -/
structure Idle (σ : Type) where
  outcome : Outcome
  scheduler : Scheduler σ
  /-- The time on the wall. -/
  wall : Nat
  deriving DecidableEq, Repr

/-- Step until the next frame or until the board stops, but at most `limit` times; `none` if that
    was not enough. -/
def idle (s : Scheduler σ) (wall : Nat) : (limit : Nat) → Except Fault (Option (Idle σ))
  | 0 => .ok none
  | limit + 1 => do
    let turn ← s.step wall wall
    let wall := wall + turn.slept
    if turn.outcome = .proceed then turn.scheduler.idle wall limit
    else return some { outcome := turn.outcome, scheduler := turn.scheduler, wall }

end Scheduler

end Handheld
