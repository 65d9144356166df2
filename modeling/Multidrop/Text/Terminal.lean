/-!
# Terminal Text

Messages for a terminal are colored by escape sequences, which are no part of
the text. Read as plain text, a message loses its escape sequences and the
control characters that only move a terminal, wherever they come from. Blanks
stay, and one of those that are control characters breaks off a sequence that
it stands in.

A character of more than one byte means nothing in a sequence: it is not shown,
and the sequence goes on. Only a string is read by the byte, and ends where one
of them is the terminator.

## Main definitions

* `Mode`: What a terminal is in the middle of.
* `Mode.read`: What of a character is shown, and what comes then.
* `plain`: A text without escape sequences.
-/

namespace Multidrop

namespace Text

namespace Terminal

/-- What a terminal is in the middle of. -/
inductive Mode where
  | text
  /-- Behind the escape character. -/
  | escape
  /-- Behind the escape character and a mark of what is meant. -/
  | marked
  /-- In the parameters of a control sequence, which a letter ends. -/
  | control
  /-- In a command to the system around the terminal, which a bell ends. -/
  | command
  /-- Behind the mark of a string for a device, which has a head. -/
  | device
  /-- In the parameters of that head. -/
  | deviceParameters
  /-- Behind a mark in that head, where no parameters are left. -/
  | deviceMarked
  /-- In a string, which the terminator ends, or another sequence. -/
  | string
  deriving DecidableEq

/-- The escape character. -/
def escapeChar : Char := '\x1b'

/-- The control character that takes back what is to the left. It is not
    shown either. -/
def deleteChar : Char := '\x7f'

/-- Whether a character is a control character. -/
def isControl (c : Char) : Bool :=
  c < ' ' || c = deleteChar

/-- Whether a control character is a blank. -/
def isBlankControl (c : Char) : Bool :=
  c = '\t' || c = '\n' || c = '\x0c' || c = '\r'

/-- Whether a control character cancels a sequence. -/
def cancels (c : Char) : Bool :=
  c = '\x18' || c = '\x1a'

/-- The mode that the character behind the escape character begins. -/
def Mode.ofMark (c : Char) : Mode :=
  if c < '0' then .marked
  else
    match c with
    | '[' => .control
    | ']' => .command
    | 'P' => .device
    | 'X' => .string
    | '^' => .string
    | '_' => .string
    | _ => .text

/-- The byte that ends a string. -/
def terminator : UInt8 := 0x9c

/-- Whether one of the bytes of a character is the terminator. -/
def holdsTerminator (c : Char) : Bool :=
  (String.utf8EncodeChar c).contains terminator

/-- The mode behind a character of more than one byte. -/
def Mode.pass (c : Char) : Mode → Mode
  | .string => if holdsTerminator c then .text else .string
  | m => m

/-- The mode behind a character of a sequence that is one byte and no control
    character. -/
def Mode.advance (c : Char) : Mode → Mode
  | .text => .text
  | .escape => .ofMark c
  | .marked => if c < '0' then .marked else .text
  | .control => if c < '@' then .control else .text
  | .command => .command
  | .device =>
    if c < '0' then .deviceMarked
    else if c = ':' || '@' ≤ c then .string
    else .deviceParameters
  | .deviceParameters =>
    if c < '0' then .deviceMarked
    else if c.isDigit || c = ';' then .deviceParameters
    else .string
  | .deviceMarked => if c < '0' then .deviceMarked else .string
  | .string => .string

/-- Whether control characters take effect in a mode, and blanks break it
    off. -/
def Mode.heedsControls : Mode → Bool
  | .text => true
  | .escape => true
  | .marked => true
  | .control => true
  | _ => false

/-- What of a character is shown, and the mode that comes then. -/
def Mode.read (c : Char) (m : Mode) : List Char × Mode :=
  if c = escapeChar then ([], .escape)
  else if cancels c then ([], .text)
  else if isBlankControl c && m.heedsControls then ([c], .text)
  else if isControl c then ([], if m = .command ∧ c = '\x07' then .text else m)
  else if m = .text then ([c], .text)
  else if deleteChar < c then ([], m.pass c)
  else ([], m.advance c)

/-- What is shown of some characters, read in a mode. -/
def shown (m : Mode) : List Char → List Char
  | [] => []
  | c :: rest =>
    let (now, m) := m.read c
    now ++ shown m rest

/-- A text without escape sequences. -/
def plain (s : String) : String :=
  String.ofList (shown .text s.toList)

end Terminal

end Text

end Multidrop
