/-!
# Text for a terminal

A terminal obeys the control characters in what is written to it, and the escape sequences they
start. A word that a player typed is quoted without them: `Text.visible` leaves of a text what a
terminal would show, with the blanks between.

A sequence starts at an escape character and runs to the character that ends it, which is seldom one
beyond ASCII; two control characters give it up. A blank inside one is shown all the same, and so is
what follows. In a message the sequence has then ended. In a stream it was only suspended, and the
next control character resumes it, unless a character beyond ASCII was shown in between.
-/

namespace Handheld.Text

/-- Where a text goes. -/
inductive Medium
  /-- A text that is handed over as a whole. -/
  | message
  /-- A text that is written out byte by byte. -/
  | stream
  deriving DecidableEq, Repr

/-- The kinds of sequences, by what ends them. -/
inductive Sequence
  /-- No sequence: characters are shown. -/
  | ground
  /-- After an escape character. -/
  | escape
  /-- An escape sequence of several characters. -/
  | intermediate
  /-- A control sequence, which ends at a letter or the like. -/
  | control
  /-- A command to the system, which ends at a bell. -/
  | command
  /-- A string to a device, before its parameters. -/
  | device
  /-- A string to a device, among its parameters. -/
  | parameters
  /-- A string to a device, after its parameters. -/
  | qualifier
  /-- The body of a string, which ends at a string terminator. -/
  | string
  deriving DecidableEq, Repr

/-- Whether a control character is a blank. -/
def isBlank (c : Char) : Bool := c = '\t' || c = '\n' || c = '\x0c' || c = '\r'

namespace Sequence

/-- Whether a character of ASCII is shown. -/
def shows (sequence : Sequence) (c : Char) : Bool :=
  match sequence with
  | .ground => isBlank c || (' ' ≤ c && c ≤ '~')
  | .escape | .intermediate | .control => isBlank c
  | .command | .device | .parameters | .qualifier | .string => false

/-- The sequence after a character of ASCII that is not shown. -/
def next (sequence : Sequence) (c : Char) : Sequence :=
  if c = '\x1b' then .escape
  else if c = '\x18' || c = '\x1a' then .ground
  else
    match sequence with
    | .ground => .ground
    | .escape =>
      if c < ' ' || '~' < c then .escape
      else if c < '0' then .intermediate
      else if c = '[' then .control
      else if c = ']' then .command
      else if c = 'P' then .device
      else if c = 'X' || c = '^' || c = '_' then .string
      else .ground
    | .intermediate => if '0' ≤ c && c ≤ '~' then .ground else .intermediate
    | .control => if '@' ≤ c && c ≤ '~' then .ground else .control
    | .command => if c = '\x07' then .ground else .command
    | .device =>
      if c < ' ' || '~' < c then .device
      else if c < '0' then .qualifier
      else if c < '@' then .parameters
      else .string
    | .parameters =>
      if c < ' ' || '~' < c then .parameters
      else if c < '0' then .qualifier
      else if c < '<' then .parameters
      else .string
    | .qualifier => if c < '0' || '~' < c then .qualifier else .string
    | .string => .string

/-- The sequence after a character beyond ASCII that is not shown. Such a character acts by its bytes,
    one of which may be a string terminator. -/
def nextWide (sequence : Sequence) (c : Char) : Sequence :=
  if sequence = .string && (String.utf8EncodeChar c).contains 0x9c then .ground else sequence

end Sequence

/-- What a medium leaves of characters inside a sequence. Behind the ground there may be a sequence
    that was suspended. -/
def visibleFrom (medium : Medium) (sequence suspended : Sequence) : List Char → List Char
  | [] => []
  | c :: cs =>
    let inner := if sequence = .ground then suspended else sequence
    if 0x7f < c.toNat then
      if sequence = .ground then c :: visibleFrom medium .ground .ground cs
      else visibleFrom medium (sequence.nextWide c) .ground cs
    else if sequence.shows c then
      match medium with
      | .message => c :: visibleFrom medium .ground .ground cs
      | .stream => c :: visibleFrom medium .ground inner cs
    else visibleFrom medium (inner.next c) .ground cs

/-- What a medium leaves of a text. -/
def visible (medium : Medium) (text : String) : String :=
  String.ofList (visibleFrom medium .ground .ground text.toList)

/-- The first line of a text, without the carriage return that may stand at its end. -/
def firstLine : List Char → List Char
  | [] => []
  | '\n' :: _ => []
  | '\r' :: '\n' :: _ => []
  | c :: cs => c :: firstLine cs

end Handheld.Text
