import Multidrop.Command.Setting
import Multidrop.Command.Token

/-!
# Scanning a Command Line

The arguments are scanned from left to right, first those in front of the
command and then those behind it. An option whose value is the next argument
is pending until then, and its value is only looked at when something else
begins: so a fault is reported where it is noticed, not where it stands.
Behind the command a place of its own begins, and what is pending in front of
it waits until the command has been scanned.

## Main definitions

* `Scan`: What has been found at a place so far.
* `Scan.arguments`: Scan the arguments of a place.
* `Scan.line`: Scan a command line.
-/

namespace Multidrop

namespace Command

/-- What has been begun and not been looked at. -/
inductive Pending where
  /-- An option, with its value if that has been found. -/
  | setting (name : OptionName) (value : Option String)
  /-- The path of a file. -/
  | path (text : String)
  deriving DecidableEq

/-- What has been found at a place so far. -/
structure Scan where
  settings : List Setting := []
  /-- The words, the last one first. -/
  words : List String := []
  pending : Option Pending := none
  /-- Whether only words follow. -/
  wordsOnly : Bool := false
  deriving DecidableEq

namespace Scan

/-- The value of an option at a place. -/
def find? {α : Type} (s : Scan) (value : Setting → Option α) : Option α :=
  s.settings.findSome? value

/-- Whether an option is waiting for its value. -/
def awaitsValue (s : Scan) : Bool :=
  match s.pending with
  | some (.setting _ none) => true
  | _ => false

/-- Add a setting. An option may be given once. -/
def add (name : OptionName) (text : String) (s : Scan) : Except UsageError Scan :=
  if s.settings.any (·.name = name) then .error .repeated
  else (Setting.read name text).map fun setting =>
    { s with settings := s.settings ++ [setting] }

/-- Look at what is pending. -/
def resolve (s : Scan) : Except UsageError Scan :=
  match s.pending with
  | none => .ok s
  | some (.setting _ none) => .error .valueNotAllowed
  | some (.setting name (some text)) => { s with pending := none }.add name text
  | some (.path text) =>
    if text.isEmpty then .error .valueNotAllowed
    else .ok { s with pending := none, words := text :: s.words }

/-- Take an option with the value that is attached to it, if there is one. -/
def setting (name : OptionName) (attached : Option (List Char)) (s : Scan) :
    Except UsageError Scan :=
  match attached with
  | some text => s.resolve >>= add name (String.ofList text)
  | none =>
    if name.isFlag then s.resolve >>= add name ""
    else s.resolve.map fun s => { s with pending := some (.setting name none) }

/-- Take an option by its name. -/
def long (level : Level) (name : List Char) (value : Option (List Char)) (s : Scan) :
    Except UsageError Scan :=
  match level.options.find? (·.long.toList = name) with
  | none => .error .unknownArgument
  | some option =>
    if option.isFlag ∧ value.isSome then .error .valueNotExpected else s.setting option value

/-- The value attached to a letter. An equals sign in front of it does not
    count. -/
def attachedTo : List Char → Option (List Char)
  | [] => none
  | '=' :: value => some value
  | value => some value

/-- Take options by their letters. -/
def short (level : Level) (s : Scan) : List Char → Except UsageError Scan
  | [] => .ok s
  | letter :: rest =>
    match level.options.find? (·.short? = some letter) with
    | none => .error .unknownArgument
    | some option =>
      if option.isFlag then
        match s.setting option none with
        | .error e => .error e
        | .ok s => short level s rest
      else s.setting option (attachedTo rest)

/-- Whether a word stands for a command, the one for help included. -/
def isCommand (word : String) : Bool :=
  word = "help" || (Level.ofWord? word).isSome

/-- Take a word that is no value of an option. Commands are not found among
    the words behind two dashes. -/
def word (level : Level) (text : String) (s : Scan) : Except UsageError Scan :=
  match level with
  | .top => .error (if s.wordsOnly ∧ isCommand text then .unknownArgument else .unknownCommand)
  | .configure =>
    if s.words.isEmpty ∧ !(s.pending matches some (.path _)) then
      s.resolve.map fun s => { s with pending := some (.path text) }
    else .error .unknownArgument
  | .writeRegisters => s.resolve.map fun s => { s with words := text :: s.words }
  | .readRegisters => .error .unknownArgument
  | .version => .error .unknownArgument

/-- Take the value of an option that awaits one, or else a word. -/
def value (level : Level) (text : String) (s : Scan) : Except UsageError Scan :=
  match s.pending with
  | some (.setting name none) => .ok { s with pending := some (.setting name (some text)) }
  | _ => s.word level text

/-- Take an argument by its looks. -/
def argument (level : Level) (text : String) (s : Scan) : Except UsageError Scan :=
  if s.wordsOnly then s.word level text
  else
    match Token.ofChars text.toList with
    | .separator => .ok { s with wordsOnly := true }
    | .long name value => s.long level name value
    | .short [] => s.value level text
    | .short letters =>
      if level.takesNumbers ∧ looksNumeric letters then s.value level text
      else s.short level letters
    | .word => s.value level text

/-- Scan the arguments of a place. -/
def arguments (level : Level) (s : Scan) : List String → Except UsageError Scan
  | [] => .ok s
  | text :: rest =>
    match s.argument level text with
    | .error e => .error e
    | .ok s => arguments level s rest

/-- The error that shows the help on some words. -/
def helpOn : List String → UsageError
  | [] => .help
  | [word] => if isCommand word then .help else .unknownCommand
  | _ => .unknownCommand

/-- A command line: the place in front of the command, and the command with
    the place behind it. -/
structure Line where
  top : Scan
  command : Option (Level × Scan)

/-- Scan a command line. -/
def line (s : Scan) : List String → Except UsageError Line
  | [] => .ok ⟨s, none⟩
  | text :: rest =>
    if !s.wordsOnly ∧ !s.awaitsValue ∧ isCommand text then
      match Level.ofWord? text with
      | none => .error (helpOn rest)
      | some level => (arguments level {} rest).map fun scan => ⟨s, some (level, scan)⟩
    else
      match s.argument .top text with
      | .error e => .error e
      | .ok s => line s rest

end Scan

end Command

end Multidrop
