import Handheld.Options.Knob

/-!
# The command line

A command line is read word by word. A word with two dashes names an option, whose value follows an
equals sign or is the next word; a word with one dash is a cluster of single letters; after a word
of two dashes alone, nothing is an option any more. There are no abbreviations.

A value that is the next word is only looked at when the following option is met, or at the end: a
word that means nothing is reported before it. That is why a reading keeps its last option as
`pending`.
-/

namespace Handheld

/-- What a word of the command line says by itself. -/
inductive Word
  /-- A knob, with the value that is attached to it. -/
  | knob (knob : Knob) (attached : Option String)
  | unthrottled
  | help (long : Bool)
  | version
  /-- Two dashes alone. -/
  | separator
  /-- A word that is a value, if one is expected. -/
  | plain (text : String)
  | refused (reply : CommandReply)
  deriving DecidableEq, Repr

namespace Word

/-- A word that starts with two dashes, by what follows them. -/
def ofLong (rest : List Char) : Word :=
  let name := String.ofList (rest.takeWhile (· ≠ '='))
  let shown := "--" ++ name
  let attached :=
    match rest.dropWhile (· ≠ '=') with
    | [] => none
    | _ :: value => some (String.ofList value)
  let flag (word : Word) : Word :=
    match attached with
    | none => word
    | some value => .refused (.unneededValue shown value)
  if name = "unthrottled" then flag .unthrottled
  else if name = "help" then flag (.help true)
  else if name = "version" then flag .version
  else
    match Knob.ofName? name with
    | some found => .knob found attached
    | none => .refused (.unknownArgument shown)

/-- A cluster of letters, of which the first settles everything. -/
def ofLetter (c : Char) : Word :=
  if c = 'h' then .help false
  else if c = 'V' then .version
  else .refused (.unknownArgument ("-" ++ String.singleton c))

/-- What a word says. -/
def ofString (text : String) : Word :=
  match text.toList with
  | ['-', '-'] => .separator
  | '-' :: '-' :: rest => ofLong rest
  | '-' :: c :: _ => ofLetter c
  | _ => .plain text

end Word

/-- A command line that was read so far. -/
structure Reading where
  options : Options := {}
  /-- The knobs that were turned. -/
  turned : List Knob := []
  /-- The last knob, with the word after it if there was one, until it is turned. -/
  pending : Option (Knob × Option String) := none
  deriving DecidableEq, Repr

namespace Reading

/-- Turn a knob. No knob is turned twice. -/
def turn (reading : Reading) (knob : Knob) (text : String) : Except CommandReply Reading :=
  if knob ∈ reading.turned then .error (.repeated knob.usage)
  else do
    let options ← knob.turn text reading.options
    return { reading with options, turned := knob :: reading.turned }

/-- Turn the pending knob, if there is one. -/
def resolve (reading : Reading) : Except CommandReply Reading :=
  match reading.pending with
  | none => .ok reading
  | some (knob, none) => .error (.valueRequired knob)
  | some (knob, some text) => { reading with pending := none }.turn knob text

/-- Read one word on. -/
def accept (reading : Reading) : Word → Except CommandReply Reading
  | .knob knob (some text) => do (← reading.resolve).turn knob text
  | .knob knob none => do return { ← reading.resolve with pending := some (knob, none) }
  | .unthrottled => do
    let reading ← reading.resolve
    if reading.options.unthrottled then throw (.repeated "--unthrottled")
    else return { reading with options.unthrottled := true }
  | .help long => do
    let _ ← reading.resolve
    throw (.help long)
  | .version => do
    let _ ← reading.resolve
    throw .version
  | .separator => .ok reading
  | .plain text =>
    match reading.pending with
    | some (knob, none) => .ok { reading with pending := some (knob, some text) }
    | _ => .error (.unknownArgument text)
  | .refused reply => .error reply

/-- Read words to the end of the line. -/
def acceptAll (reading : Reading) : List String → Except CommandReply Reading
  | [] => reading.resolve
  | text :: rest =>
    match Word.ofString text with
    | .separator =>
      match rest with
      | [] => reading.resolve
      | extra :: _ => .error (.unknownArgument extra)
    | word => do (← reading.accept word).acceptAll rest

end Reading

/-- The options on a command line, or what it is to be answered with. -/
def Options.ofArguments (arguments : List String) : Except CommandReply Options :=
  Reading.options <$> Reading.acceptAll {} arguments

end Handheld
