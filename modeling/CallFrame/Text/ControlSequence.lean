/-!
# Control sequences of terminals

A text may hold characters that a terminal takes as commands: control characters, and
sequences that an escape character begins. They are removed from a text that is written to
a log. White space is kept, also the white space inside a sequence; the text behind that is
kept as well, up to the next control character, and with it the sequence goes on.

An escape character begins a new sequence wherever it stands, and the characters `0x18` and
`0x1a` end every sequence. A control string ends with the byte `0x9c`, also as part of an
encoded character. A device control string begins with parameters and intermediate
characters, and its terminator only counts behind these, or behind the first of them that is
out of order.
-/

namespace CallFrame

namespace ControlSequence

/-- Where in a control sequence a text is. -/
inductive State where
  /-- Outside of all sequences. -/
  | ground
  /-- Behind an escape character. -/
  | escape
  /-- In an escape sequence of several characters. -/
  | intermediate
  /-- In the parameters of a control function. -/
  | control
  /-- Behind the introducer of a device control string. -/
  | device
  /-- In the parameters of a device control string. -/
  | deviceParameters
  /-- Behind an intermediate character of a device control string. -/
  | deviceIntermediate
  /-- In a control string, which ends with its terminator. -/
  | string
  /-- In a command for the operating system, which ends with a bell or its terminator. -/
  | command
  deriving DecidableEq

/-- The character that begins a sequence. -/
def escapeCharacter : Char := '\x1b'

/-- Whether the character ends every sequence. -/
def cancels (c : Char) : Bool :=
  c == '\x18' || c == '\x1a'

/-- Whether the character is white space with a control character's code. -/
def isControlSpace (c : Char) : Bool :=
  c == '\t' || c == '\n' || c == '\x0c' || c == '\r'

/-- Whether the character is kept outside of sequences. -/
def isKept (c : Char) : Bool :=
  (0x20 ≤ c.toNat && c.toNat != 0x7f) || isControlSpace c

/-- Whether the code of the character is in a range, both ends included. -/
def isWithin (first last : Nat) (c : Char) : Bool :=
  first ≤ c.toNat && c.toNat ≤ last

/-- Whether the encoded character holds the terminator of eight bits. -/
def terminates (c : Char) : Bool :=
  (String.utf8EncodeChar c).contains 0x9c

namespace State

/-- The state behind a character that follows an escape character. -/
def ofSecond (c : Char) : State :=
  if c = '[' then .control
  else if c = ']' then .command
  else if c = 'P' then .device
  else if c = 'X' ∨ c = '^' ∨ c = '_' then .string
  else if isWithin 0x20 0x2f c then .intermediate
  else if isWithin 0x30 0x7e c then .ground
  else .escape

/-- The state behind a character that neither begins nor cancels a sequence. -/
def inside (state : State) (c : Char) : State :=
  match state with
  | .ground => .ground
  | .escape => ofSecond c
  | .intermediate => if isWithin 0x30 0x7e c then .ground else .intermediate
  | .control => if isWithin 0x40 0x7e c then .ground else .control
  | .device =>
    if isWithin 0x20 0x2f c then .deviceIntermediate
    else if isWithin 0x30 0x3f c then .deviceParameters
    else if isWithin 0x40 0x7e c then .string
    else .device
  | .deviceParameters =>
    if isWithin 0x20 0x2f c then .deviceIntermediate
    else if isWithin 0x3c 0x7e c then .string
    else .deviceParameters
  | .deviceIntermediate => if isWithin 0x30 0x7e c then .string else .deviceIntermediate
  | .string => if terminates c then .ground else .string
  | .command => if c = '\x07' then .ground else .command

/-- The state behind a character. -/
def next (state : State) (c : Char) : State :=
  if c = escapeCharacter then .escape
  else if cancels c then .ground
  else state.inside c

/-- Whether the character is kept in this state. -/
def keeps (state : State) (c : Char) : Bool :=
  match state with
  | .ground => isKept c
  | .escape | .intermediate | .control => isControlSpace c
  | .device | .deviceParameters | .deviceIntermediate | .string | .command => false

end State

/-- A text without its control sequences. While `isOpen` holds, characters are kept up to
the next control character, whatever the state is; a character beyond ASCII ends the
sequence. -/
def strip (isOpen : Bool) (state : State) : List Char → List Char
  | [] => []
  | c :: rest =>
    if isOpen then
      if isKept c then c :: strip true (if c.toNat < 0x80 then state else .ground) rest
      else strip false (state.next c) rest
    else
      if state.keeps c then c :: strip true (state.next c) rest
      else strip false (state.next c) rest

/-- A text without its control sequences. -/
def remove (text : String) : String :=
  String.ofList (strip true .ground text.toList)

end ControlSequence

end CallFrame
