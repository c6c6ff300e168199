import Handheld.Options.CommandLine
import Handheld.Text

/-!
# Help

What the command line is answered with, as text. Long help gives each option a paragraph; short help
gives each a line, with the defaults and choices behind it. Both start the text of an option on a
line of its own. Any other answer is an error, told in one line, in which the player's own words are
quoted as far as they are visible.
-/

namespace Handheld

/-- The texts about one option. -/
structure HelpEntry where
  /-- The option as it is shown, with its margin. -/
  usage : String
  about : Option String := none
  /-- The choices of a value, each with what it does. -/
  choices : List (String × String) := []
  default : Option String := none
  deriving DecidableEq, Repr

namespace HelpEntry

/-- The margin of an option's text. -/
def margin : String := "          "

/-- A line of an option's text. -/
def line (text : String) : String := margin ++ text ++ "\n"

/-- A choice with its text, padded so that the texts are aligned. -/
def choiceLine (width : Nat) (choice : String × String) : String :=
  let padding := String.ofList (List.replicate (width - choice.1.length) ' ')
  line ("- " ++ choice.1 ++ ": " ++ padding ++ choice.2)

/-- The choices, one under the other. -/
def choiceLines (choices : List (String × String)) : String :=
  let width := choices.foldl (fun width choice => max width choice.1.length) 0
  line "Possible values:" ++ String.join (choices.map (choiceLine width))

/-- The paragraph of long help: text, choices and default, with empty lines between them. -/
def long (entry : HelpEntry) : String :=
  let about := entry.about.toList.map line
  let choices := if entry.choices.isEmpty then [] else [choiceLines entry.choices]
  let default := entry.default.toList.map fun value => line ("[default: " ++ value ++ "]")
  entry.usage ++ "\n" ++ String.intercalate (line "") (about ++ choices ++ default)

/-- The two lines of short help. -/
def short (entry : HelpEntry) : String :=
  let default := entry.default.toList.map fun value => "[default: " ++ value ++ "]"
  let choices :=
    if entry.choices.isEmpty then []
    else ["[possible values: " ++ String.intercalate ", " (entry.choices.map Prod.fst) ++ "]"]
  entry.usage ++ "\n" ++ line (String.intercalate " " (entry.about.toList ++ default ++ choices))

end HelpEntry

/-- The texts about a knob. -/
def Knob.help (knob : Knob) : HelpEntry :=
  let usage := "      " ++ knob.usage
  match knob with
  | .mode =>
    { usage
      choices := [
        ("cooperative", "one thread alternates between simulating and servicing the terminal"),
        ("threaded", "simulation runs on its own thread; input crosses over a queue")]
      default := some "cooperative" }
  | .burstCycles =>
    { usage
      about := some "simulated cycles between scheduler checkpoints"
      default := some "16000" }
  | .persistenceUs =>
    { usage
      about := some "how often the afterglow model samples the panel, in microseconds"
      default := some "7572" }
  | .redrawUs =>
    { usage
      about := some "how often the terminal is redrawn, in microseconds"
      default := some "90864" }
  | .lumaDecay => { usage, default := some "85" }
  | .lumaIncrease => { usage, default := some "170" }
  | .queueCapacity =>
    { usage
      about := some "input events that may wait between bursts (threaded mode)"
      default := some "64" }
  | .frequencyHz => { usage, default := some "16000000" }
  | .keyReleaseMs =>
    { usage
      about := some "release a key once the terminal has stopped repeating it for this long"
      default := some "400" }
  | .runForMs => { usage, about := some "halt the demo board after this much simulated time" }

namespace Help

/-- The name and version of the program. -/
def version : String := "arduboy 0.1.0\n"

/-- What help begins with. -/
def header : String :=
  "Arduboy board simulator with a terminal display\n\nUsage: arduboy [OPTIONS]\n\nOptions:\n"

/-- The texts about all options. The text about help itself points to the other form of help. -/
def entries (other : String) : List HelpEntry :=
  let unthrottled : HelpEntry :=
    { usage := "      --unthrottled"
      about := some "run as fast as the host allows instead of pacing to wall-clock time" }
  let help : HelpEntry :=
    { usage := "  -h, --help", about := some ("Print help (see " ++ other ++ ")") }
  let version : HelpEntry := { usage := "  -V, --version", about := some "Print version" }
  let knobs := Knob.all.map Knob.help
  knobs.take 8 ++ [unthrottled] ++ knobs.drop 8 ++ [help, version]

/-- Help with a paragraph for each option. -/
def long : String :=
  header ++ String.intercalate "\n" ((entries "a summary with '-h'").map HelpEntry.long)

/-- Help with a line for each option. -/
def short : String :=
  header ++ String.join ((entries "more with '--help'").map HelpEntry.short)

end Help

namespace CommandReply

/-- The words of an error, for a medium. -/
def complaint (medium : Text.Medium) (reply : CommandReply) : String :=
  let quote (text : String) : String := "'" ++ Text.visible medium text ++ "'"
  match reply with
  | .unknownArgument word => "unexpected argument " ++ quote word ++ " found"
  | .valueRequired knob => "a value is required for '" ++ knob.usage ++ "' but none was supplied"
  | .invalidChoice knob value => "invalid value " ++ quote value ++ " for '" ++ knob.usage ++ "'"
  | .invalidNumber knob value error =>
    "invalid value " ++ quote value ++ " for '" ++ knob.usage ++ "': " ++ error.message
  | .repeated shown => "the argument '" ++ shown ++ "' cannot be used multiple times"
  | .unneededValue shown value =>
    "unexpected value " ++ quote value ++ " for '" ++ shown ++ "' found; no more were expected"
  | .help _ => ""
  | .version => ""

/-- The text of a reply, for a medium. Of an error it is a single line, which a value may cut
    short. -/
def text (medium : Text.Medium) (reply : CommandReply) : String :=
  match reply with
  | .help true => Help.long
  | .help false => Help.short
  | .version => Help.version
  | reply => String.ofList (Text.firstLine ("error: " ++ reply.complaint medium).toList)

/-- Whether a reply is what the player asked for. -/
def isWanted : CommandReply → Bool
  | .help _ => true
  | .version => true
  | _ => false

end CommandReply

end Handheld
