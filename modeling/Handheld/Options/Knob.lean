import Handheld.Options
import Handheld.Options.Number

/-!
# Knobs

A knob is an option that takes a value: its name, how its value is read, and what is said when that
fails. `CommandReply` gathers all that a command line can be answered with instead of a run.
-/

namespace Handheld

/-- The options that take a value, in the order in which they are listed. -/
inductive Knob
  | mode
  | burstCycles
  | persistenceUs
  | redrawUs
  | lumaDecay
  | lumaIncrease
  | queueCapacity
  | frequencyHz
  | keyReleaseMs
  | runForMs
  deriving DecidableEq, Repr

namespace Knob

/-- Every knob. -/
def all : List Knob :=
  [.mode, .burstCycles, .persistenceUs, .redrawUs, .lumaDecay, .lumaIncrease, .queueCapacity,
    .frequencyHz, .keyReleaseMs, .runForMs]

/-- The name of a knob, without the dashes before it. -/
def name : Knob → String
  | .mode => "mode"
  | .burstCycles => "burst-cycles"
  | .persistenceUs => "persistence-us"
  | .redrawUs => "redraw-us"
  | .lumaDecay => "luma-decay"
  | .lumaIncrease => "luma-increase"
  | .queueCapacity => "queue-capacity"
  | .frequencyHz => "frequency-hz"
  | .keyReleaseMs => "key-release-ms"
  | .runForMs => "run-for-ms"

/-- The name that a knob's value goes by. -/
def valueName (knob : Knob) : String :=
  knob.name.map fun c => if c = '-' then '_' else c.toUpper

/-- A knob as it is shown, with a place for its value. -/
def usage (knob : Knob) : String := "--" ++ knob.name ++ " <" ++ knob.valueName ++ ">"

/-- The knob of a name. -/
def ofName? (name : String) : Option Knob := all.find? fun knob => knob.name = name

end Knob

/-- What a command line can be answered with instead of a run. -/
inductive CommandReply
  /-- A word that means nothing where it stands. -/
  | unknownArgument (word : String)
  /-- A knob that was given no value. -/
  | valueRequired (knob : Knob)
  /-- A value that is none of a knob's choices. -/
  | invalidChoice (knob : Knob) (value : String)
  | invalidNumber (knob : Knob) (value : String) (error : NumberError)
  /-- An option, as it is shown, that was given twice. -/
  | repeated (shown : String)
  /-- A value for an option, as it is shown, that takes none. -/
  | unneededValue (shown value : String)
  | help (long : Bool)
  | version
  deriving DecidableEq, Repr

namespace Knob

/-- Turn a knob to the value in a text. -/
def turn (knob : Knob) (text : String) (options : Options) : Except CommandReply Options :=
  let number (read : List Char → Except NumberError Options) : Except CommandReply Options :=
    (read text.toList).mapError (.invalidNumber knob text)
  let word (set : Nat → Options) : Except CommandReply Options :=
    number fun cs => set <$> Number.natural wordMax cs
  let byte (set : UInt8 → Options) : Except CommandReply Options :=
    number fun cs => set <$> Number.byte cs
  match knob with
  | .mode =>
    if text = "cooperative" then .ok { options with mode := .cooperative }
    else if text = "threaded" then .ok { options with mode := .threaded }
    else if text = "" then .error (.valueRequired knob)
    else .error (.invalidChoice knob text)
  | .burstCycles => word fun n => { options with burstCycles := n }
  | .persistenceUs => word fun n => { options with samplingMicros := n }
  | .redrawUs => word fun n => { options with redrawMicros := n }
  | .lumaDecay => byte fun n => { options with lumaDecay := n }
  | .lumaIncrease => byte fun n => { options with lumaIncrease := n }
  | .queueCapacity => word fun n => { options with queueCapacity := n }
  | .frequencyHz => word fun n => { options with frequency := n }
  | .keyReleaseMs => word fun n => { options with keyReleaseMillis := n }
  | .runForMs => word fun n => { options with runForMillis := some n }

end Knob

end Handheld
