import Handheld.Board.Demo
import Handheld.Host.Cooperative
import Handheld.Host.Threaded
import Handheld.Options.Help
import Handheld.Screen.Panel

/-!
# A session

The whole program from its command line to its end: the options are read, the demo board is made
ready, a host plays it on a terminal, and at last the reason of the end is told. Bad settings are
refused before anything runs.

`Session.run` plays a session on a terminal of a given size, with keys that were struck before the
start, on a wall on which computing takes no time.
-/

namespace Handheld

/-- What a session leaves behind. -/
structure Report where
  exitCode : Nat
  /-- What was complained of, in one line. -/
  complaint : String := ""
  /-- What the terminal shows at the end. -/
  screen : Screen
  /-- What was written after the first line feed, if there was one. -/
  tail : Option String := none
  deriving DecidableEq, Repr

/-- A state of the processor as it is told to the player. -/
def CpuState.title : CpuState → String
  | .running => "Running"
  | .sleeping => "Sleeping"
  | .done => "Done"
  | .crashed => "Crashed"

/-- What is told to the player about the end, after a line feed. -/
def Exit.farewell : Exit → String
  | .quit => ""
  | .ended state => "simulation stopped: " ++ state.title ++ "\n"

namespace Session

/-- The panel of the demo board. -/
def panel : Panel := { width := Game.width, height := Game.height }

/-- A demo board with its scheduler, as the options want them. -/
def prepare (options : Options) : Except SettingsError (Scheduler DemoBoard) := do
  let settings ← options.settings
  let strategy ← options.strategy
  let board := DemoBoard.start settings.clock.frequency
  let board := { board with haltAt := options.haltAt settings.clock }
  Scheduler.new board (.ofStrategy strategy) settings

/-- A keyboard at which keys were struck before the start. -/
def keyboard (options : Options) (struck : List TerminalEvent) : StruckKeys :=
  { keyboard := .ofRelease options.keyRelease, waiting := struck }

/-- Play a prepared scheduler to the end, with the frames that were drawn; `none` if `limit` steps
    were not enough. -/
def play (options : Options) (scheduler : Scheduler DemoBoard) (struck : List TerminalEvent)
    (limit : Nat) : Except Fault (Option (Except HostError Exit × List Frame)) :=
  let input := keyboard options struck
  match options.mode with
  | .cooperative => do
    let host : Cooperative DemoBoard StruckKeys := { scheduler, input }
    return (← host.run limit limit).map fun (result, host) => (result, host.album.frames)
  | .threaded =>
    let pair := Threaded.start scheduler input
    .ok <| (Threaded.run (Threaded.patient 0) pair limit).map fun (result, pair) =>
      (result, pair.album.frames)

/-- What a terminal of a size shows after frames were drawn. -/
def shown (columns rows : Nat) (frames : List Frame) : Except Fault Screen :=
  match frames.getLast? with
  | none => .ok (.blank columns rows)
  | some frame => panel.draw columns rows frame

/-- The report of a command line that was answered at once. -/
def answer (columns rows : Nat) (reply : CommandReply) : Report :=
  if reply.isWanted then
    let text := (reply.text .stream).toList
    { exitCode := 0
      screen := .ofText columns rows (text.takeWhile (· ≠ '\n'))
      tail := some (String.ofList (text.dropWhile (· ≠ '\n')).tail) }
  else { exitCode := 2, complaint := reply.text .stream, screen := .blank columns rows }

/-- The report of a session that failed. -/
def failure (screen : Screen) (error : HostError) : Report :=
  { exitCode := 1, complaint := "Error: " ++ error.dump, screen }

/-- A session from its command line to its end; `none` if `limit` steps were not enough. -/
def run (columns rows : Nat) (arguments : List String) (struck : List TerminalEvent)
    (limit : Nat) : Except Fault (Option Report) :=
  match Options.ofArguments arguments with
  | .error reply => .ok (some (answer columns rows reply))
  | .ok options =>
    match prepare options with
    | .error error => .ok (some (failure (.blank columns rows) (.settings error)))
    | .ok scheduler => do
      match ← play options scheduler struck limit with
      | none => return none
      | some (result, frames) =>
        let screen ← shown columns rows frames
        match result with
        | .error error => return some (failure screen error)
        | .ok exit => return some { exitCode := 0, screen, tail := some exit.farewell }

end Session

end Handheld
