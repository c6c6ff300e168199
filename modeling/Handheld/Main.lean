import Handheld.Session
import Handheld.Terminal

/-!
# The program

Plays a session on the terminal in real time: keys come from standard input, frames go to standard
output, and the wall is the machine's own clock. All that is decided here is when to sleep and when
to paint; the rest is the library's.
-/

namespace Handheld.Program

/-- Read keys up to a request to quit, and leave them where the host finds them. -/
partial def readKeys (input : IO.FS.Stream) (keys : IO.Ref (List TerminalEvent))
    (state : KeyState) : IO Unit := do
  let bytes ← input.read 1
  let (codes, state) : List KeyCode × KeyState :=
    match bytes.toList with
    | [] => (state.flush, .idle)
    | byte :: _ => state.read (Char.ofNat byte.toNat)
  keys.modify (· ++ codes.map fun code => .key code)
  if !bytes.isEmpty && !codes.any KeyCode.isQuit then readKeys input keys state

/-- Sleep until the wall shows a time. -/
def sleepUntil (wall : Nat) : IO Unit := do
  let now ← IO.monoNanosNow
  if now < wall then IO.sleep (UInt32.ofNat ((wall - now + 999999) / 1000000))

/-- Paint the last of some frames. -/
def paint (frames : List Frame) : IO Unit := do
  match frames.getLast? with
  | none => return
  | some frame =>
    match Session.panel.draw Session.panel.columns Session.panel.rows frame with
    | .error fault => throw (IO.userError fault.message)
    | .ok screen =>
      let output ← IO.getStdout
      output.putStr screen.paint
      output.flush

/-- Tell how a session ended, with the exit code. -/
def finish (result : Except HostError Exit) : IO UInt32 := do
  match result with
  | .ok exit =>
    IO.print ("\n" ++ exit.farewell)
    return 0
  | .error error =>
    IO.eprintln ("Error: " ++ error.dump)
    return 1

/-- The steps of one round, which is more than any round needs. -/
def limit : Nat := UInt64.size / 4

/-- Play on one thread. -/
partial def playCooperative (keys : IO.Ref (List TerminalEvent))
    (host : Cooperative DemoBoard StruckKeys) : IO UInt32 := do
  let waiting ← keys.modifyGet fun waiting => (waiting, [])
  let host := { host with input.waiting := waiting, album := {}, wall := ← IO.monoNanosNow }
  match host.round limit with
  | .error fault => throw (IO.userError fault.message)
  | .ok .outOfSteps => playCooperative keys host
  | .ok (.stopped result _) => finish result
  | .ok (.again host) =>
    sleepUntil host.wall
    paint host.album.frames
    playCooperative keys host

/-- Play in turns of the two parties. -/
partial def playThreaded (keys : IO.Ref (List TerminalEvent))
    (pair : Threaded DemoBoard StruckKeys) (count : Nat) : IO UInt32 := do
  match pair.stage with
  | .stopped result => finish result
  | _ =>
    let waiting ← keys.modifyGet fun waiting => (waiting, [])
    let pair := { pair with
      input.waiting := pair.input.waiting ++ waiting
      album := {}
      simulation.wall := ← IO.monoNanosNow }
    let pair := pair.turn (Threaded.patient 0 pair count)
    sleepUntil pair.simulation.wall
    paint pair.album.frames
    playThreaded keys pair (count + 1)

/-- Play a prepared scheduler as the options want it. -/
def play (options : Options) (scheduler : Scheduler DemoBoard) : IO UInt32 := do
  let keys ← IO.mkRef []
  let _ ← IO.asTask (readKeys (← IO.getStdin) keys .idle) .dedicated
  IO.print "\x1b[2J"
  let input := Session.keyboard options []
  match options.mode with
  | .cooperative => playCooperative keys { scheduler, input }
  | .threaded => playThreaded keys (Threaded.start scheduler input) 0

end Handheld.Program

open Handheld Handheld.Program in
/-- Play a session with the options of the command line. -/
def main (arguments : List String) : IO UInt32 := do
  match Options.ofArguments arguments with
  | .error reply =>
    if reply.isWanted then
      IO.print (reply.text .stream)
      return 0
    else
      IO.eprintln (reply.text .stream)
      return 2
  | .ok options =>
    match Session.prepare options with
    | .error error => finish (.error (.settings error))
    | .ok scheduler => play options scheduler
