import Handheld.Button

/-!
# The keyboard

A terminal reports only that a key is pressed, over and over while it is held, and never that it is
let go. `Holds` turns these reports into pairs of press and release: a button is held from its first
report until it has been quiet for `releaseAfter`, and only the first report and the release are
events. Times are nanoseconds from some origin; a time before another counts as the same.

`Keyboard.poll` maps the keys of a terminal to the player's events. Modifiers do not matter, and
what has no meaning is passed over.
-/

namespace Handheld

/-- The buttons that are held. -/
structure Holds where
  releaseAfter : Nat
  /-- When each held button was last reported. -/
  lastSeen : ButtonMap (Option Nat) := .const none
  deriving DecidableEq, Repr

namespace Holds

/-- Whether a button is held. -/
def isHeld (holds : Holds) (button : Button) : Bool := (holds.lastSeen.get button).isSome

/-- Whether a button is held but was last reported long enough before `now`. -/
def isStale (holds : Holds) (now : Nat) (button : Button) : Bool :=
  (holds.lastSeen.get button).any fun seen => holds.releaseAfter ≤ now - seen

/-- A report of a button: it is an event if the button was not held. -/
def press (holds : Holds) (button : Button) (now : Nat) : List HostEvent × Holds :=
  (if holds.isHeld button then [] else [.button ⟨button, true⟩],
    { holds with lastSeen := holds.lastSeen.set button (some now) })

/-- Let go of the buttons that have been quiet for long enough, in index order. -/
def expire (holds : Holds) (now : Nat) : List HostEvent × Holds :=
  ((Button.all.filter (holds.isStale now)).map fun button => .button ⟨button, false⟩,
    { holds with
      lastSeen := .ofFn fun button =>
        if holds.isStale now button then none else holds.lastSeen.get button })

end Holds

/-- The keys of a terminal. -/
inductive KeyCode
  | up
  | down
  | left
  | right
  | escape
  | char (c : Char)
  /-- A key that has a name but no character. -/
  | named (name : String)
  deriving DecidableEq, Repr

namespace KeyCode

/-- Whether a key asks to quit. -/
def isQuit (code : KeyCode) : Bool := code = .char 'q' || code = .escape

/-- The button that a key stands for. -/
def button? : KeyCode → Option Button
  | .up => some .up
  | .down => some .down
  | .left => some .left
  | .right => some .right
  | .char 'z' => some .a
  | .char 'x' => some .b
  | _ => none

end KeyCode

/-- The keys held down along with another. -/
structure Modifiers where
  control : Bool := false
  alt : Bool := false
  shift : Bool := false
  deriving DecidableEq, Repr

/-- What a terminal reports. -/
inductive TerminalEvent
  | key (code : KeyCode) (modifiers : Modifiers := {})
  | mouse
  deriving DecidableEq, Repr

/-- A keyboard that plays the console. -/
structure Keyboard where
  holds : Holds
  deriving DecidableEq, Repr

namespace Keyboard

/-- A keyboard whose buttons are let go after a quiet time. -/
def ofRelease (releaseAfter : Nat) : Keyboard := { holds := { releaseAfter } }

/-- What one report of the terminal, at the time `now`, means to the player's side. -/
def read (keyboard : Keyboard) (event : TerminalEvent) (now : Nat) : List HostEvent × Keyboard :=
  match event with
  | .mouse => ([], keyboard)
  | .key code _ =>
    if code.isQuit then ([.quit], keyboard)
    else
      match code.button? with
      | none => ([], keyboard)
      | some button =>
        let (events, holds) := keyboard.holds.press button now
        (events, { keyboard with holds })

/-- Read reports in order, each at its time. -/
def readAll (keyboard : Keyboard) : List (TerminalEvent × Nat) → List HostEvent × Keyboard
  | [] => ([], keyboard)
  | (event, now) :: rest =>
    let (events, keyboard) := keyboard.read event now
    let (more, keyboard) := keyboard.readAll rest
    (events ++ more, keyboard)

/-- Read all reports that wait, then let go of what has been quiet for long enough at the time
    `now`. -/
def poll (keyboard : Keyboard) (waiting : List (TerminalEvent × Nat)) (now : Nat) :
    List HostEvent × Keyboard :=
  let (events, keyboard) := keyboard.readAll waiting
  let (releases, holds) := keyboard.holds.expire now
  (events ++ releases, { keyboard with holds })

end Keyboard

end Handheld
