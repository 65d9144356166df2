import Multidrop.Decimal.Integer
import Multidrop.Register.Value
import Multidrop.Report.Registers
import Multidrop.Text.Terminal

/-!
# Options and Their Values

The options of the command line, and what may be said with each of them. Some
belong to every command and may stand in front of it or behind it; the others
belong to some commands only. An option without a value is a flag.

## Main definitions

* `OptionName`: The options.
* `Level`: The places where options may stand.
* `Level.options`: The options of a place.
* `UsageError`: What can be wrong with a command line.
* `Setting`: An option with its value.
* `Setting.read`: Read the value of an option.
-/

namespace Multidrop

namespace Command

/-- The options. -/
inductive OptionName where
  | connect
  | source
  | strictCrc
  | format
  | logFormat
  | logLevel
  | target
  | channel
  | register
  | count
  | kind
  | timeout
  | lineTimeout
  | ack
  | extended
  | help
  | version
  deriving DecidableEq

namespace OptionName

/-- The name behind two dashes. -/
def long : OptionName → String
  | .connect => "connect"
  | .source => "source"
  | .strictCrc => "strict-crc"
  | .format => "format"
  | .logFormat => "log-format"
  | .logLevel => "log-level"
  | .target => "target"
  | .channel => "channel"
  | .register => "register"
  | .count => "count"
  | .kind => "type"
  | .timeout => "timeout"
  | .lineTimeout => "line-timeout"
  | .ack => "ack"
  | .extended => "extended"
  | .help => "help"
  | .version => "version"

/-- The letter behind one dash, for options that have one. -/
def short? : OptionName → Option Char
  | .target => some 't'
  | .channel => some 'c'
  | .register => some 'r'
  | .help => some 'h'
  | .version => some 'V'
  | _ => none

/-- Whether an option is a flag. -/
def isFlag : OptionName → Bool
  | .strictCrc => true
  | .ack => true
  | .extended => true
  | .help => true
  | .version => true
  | _ => false

/-- How an option with a value is written in messages. -/
def shown (name : OptionName) : String :=
  s!"--{name.long} <{name.long.toUpper}>"

end OptionName

/-- The places where options may stand: in front of the command, or behind
    one of the commands. -/
inductive Level where
  | top
  | configure
  | readRegisters
  | writeRegisters
  | version
  deriving DecidableEq

namespace Level

/-- The options that belong to every command. -/
def shared : List OptionName :=
  [.connect, .source, .strictCrc, .format, .logFormat, .logLevel]

/-- The options that may stand at a place. -/
def options : Level → List OptionName
  | .top => shared ++ [.help, .version]
  | .configure => shared ++ [.target, .channel, .timeout, .lineTimeout, .help]
  | .readRegisters => shared ++ [.target, .register, .count, .kind, .timeout, .help]
  | .writeRegisters => shared ++ [.target, .register, .kind, .ack, .timeout, .help]
  | .version => shared ++ [.extended, .help]

/-- The command of a word. -/
def ofWord? (word : String) : Option Level :=
  match word with
  | "conf-write" => some .configure
  | "reg-read" => some .readRegisters
  | "reg-write" => some .writeRegisters
  | "version" => some .version
  | _ => none

/-- Whether the words at a place may be numbers below zero. -/
def takesNumbers (level : Level) : Bool :=
  level = .writeRegisters

end Level

/-- What can be wrong with a command line. Asking for help or for the version
    ends the reading as well. -/
inductive UsageError where
  | unknownArgument
  | unknownCommand
  | missingArgument
  | missingCommand
  /-- Nothing is given at all. -/
  | nothingGiven
  /-- An option is given twice at one place. -/
  | repeated
  /-- The value is missing, or none of those that are allowed. -/
  | valueNotAllowed
  /-- A flag is given a value. -/
  | valueNotExpected
  /-- The value makes no sense. -/
  | invalidValue (name : OptionName) (value reason : String)
  | help
  | version
  deriving DecidableEq

/-- The wording of an error. That of a value that makes no sense is meant for
    a terminal: its parts are colored one by one, so an escape sequence that a
    value begins ends with its part. -/
def UsageError.message : UsageError → String
  | .unknownArgument => "error: unexpected argument found"
  | .unknownCommand => "error: unrecognized subcommand"
  | .missingArgument => "error: required arguments were not provided"
  | .missingCommand => "error: a subcommand is required but one was not provided"
  | .nothingGiven => "error: nothing to do"
  | .repeated => "error: an argument cannot be used multiple times"
  | .valueNotAllowed => "error: a value is missing or is not a possible value"
  | .valueNotExpected => "error: a value was given for a flag"
  | .invalidValue name value reason =>
      String.join <| [
        "error:", " invalid value '", value, "' for '", name.shown,
        s!"': {reason}\n\nFor more information, try '", "--help", "'."].map Text.Terminal.plain
  | .help => "usage: serialmux [OPTIONS] <COMMAND>"
  | .version => "serialmux 0.1.0"

/-- The first line of the wording. -/
def UsageError.headline (e : UsageError) : String :=
  let line := e.message.toList.takeWhile (· ≠ '\n')
  let ends := line.length < e.message.length && line.getLast? = some '\r'
  String.ofList (if ends then line.dropLast else line)

/-- The code a command line that is not understood ends with. -/
def UsageError.code : UsageError → Nat
  | .help => 0
  | .version => 0
  | _ => 2

/-- The formats of a log. -/
inductive LogFormat where
  | text
  | json
  deriving DecidableEq

/-- The least important events that are logged. -/
inductive LogLevel where
  | error
  | warn
  | info
  | debug
  | trace
  deriving DecidableEq

/-- An option with its value. -/
inductive Setting where
  | connect (endpoint : String)
  | source (address : UInt8)
  | strictCrc
  | format (format : Report.Format)
  | logFormat (format : LogFormat)
  | logLevel (level : LogLevel)
  | target (address : UInt8)
  | channel (number : UInt32)
  | register (number : UInt32)
  | count (number : UInt32)
  | kind (kind : Register.Kind)
  | timeout (text : String)
  | lineTimeout (text : String)
  | ack
  | extended
  deriving DecidableEq

namespace Setting

/-- The option of a setting. -/
def name : Setting → OptionName
  | .connect _ => .connect
  | .source _ => .source
  | .strictCrc => .strictCrc
  | .format _ => .format
  | .logFormat _ => .logFormat
  | .logLevel _ => .logLevel
  | .target _ => .target
  | .channel _ => .channel
  | .register _ => .register
  | .count _ => .count
  | .kind _ => .kind
  | .timeout _ => .timeout
  | .lineTimeout _ => .lineTimeout
  | .ack => .ack
  | .extended => .extended

/-- Read an address. It has seven bits. -/
def readAddress (text : String) : Except String UInt8 :=
  match Decimal.Range.unsigned8.parse 10 text.toList with
  | .error _ => .error s!"invalid address: {text}"
  | .ok n =>
    if 0x7f < n then .error s!"address {n} does not fit in 7 bits" else .ok (.ofNat n.toNat)

/-- Read a register number, in decimal or behind `0x` in hexadecimal. -/
def readRegister (text : String) : Except String UInt32 :=
  let number :=
    match text.toList with
    | '0' :: 'x' :: digits => Decimal.Range.unsigned32.parse 16 digits
    | '0' :: 'X' :: digits => Decimal.Range.unsigned32.parse 16 digits
    | digits => Decimal.Range.unsigned32.parse 10 digits
  match number with
  | .error _ => .error s!"invalid register: {text}"
  | .ok n => .ok (.ofNat n.toNat)

/-- Read a number of thirty-two bits. -/
def readCount (text : String) : Except String UInt32 :=
  match (Decimal.Range.signed 64).parse 10 text.toList with
  | .error fault => .error fault.message
  | .ok n =>
    let range := Decimal.Range.unsigned32
    if n < range.low ∨ range.high < n then
      .error s!"{n} is not in {range.low}..={range.high}"
    else .ok (.ofNat n.toNat)

/-- Read the name of a format. -/
def readFormat? : String → Option Report.Format
  | "json" => some .json
  | "table" => some .table
  | "pretty" => some .pretty
  | _ => none

/-- Read the name of a format of a log. -/
def readLogFormat? : String → Option LogFormat
  | "text" => some .text
  | "json" => some .json
  | _ => none

/-- Read the name of a level of a log. -/
def readLogLevel? : String → Option LogLevel
  | "error" => some .error
  | "warn" => some .warn
  | "info" => some .info
  | "debug" => some .debug
  | "trace" => some .trace
  | _ => none

/-- A setting whose value was read, or the reason why it was not. -/
def checked {α : Type} (name : OptionName) (text : String) (setting : α → Setting) :
    Except String α → Except UsageError Setting
  | .ok value => .ok (setting value)
  | .error reason => .error (.invalidValue name text reason)

/-- A setting whose value is one of those allowed. -/
def chosen {α : Type} (setting : α → Setting) : Option α → Except UsageError Setting
  | some value => .ok (setting value)
  | none => .error .valueNotAllowed

/-- Read the value of an option. Flags have none to read. -/
def read (name : OptionName) (text : String) : Except UsageError Setting :=
  match name with
  | .connect => .ok (.connect text)
  | .source => checked name text .source (readAddress text)
  | .strictCrc => .ok .strictCrc
  | .format => chosen .format (readFormat? text)
  | .logFormat => chosen .logFormat (readLogFormat? text)
  | .logLevel => chosen .logLevel (readLogLevel? text)
  | .target => checked name text .target (readAddress text)
  | .channel => checked name text .channel (readCount text)
  | .register => checked name text .register (readRegister text)
  | .count => checked name text .count (readCount text)
  | .kind => chosen .kind (Register.Kind.ofName? text)
  | .timeout => .ok (.timeout text)
  | .lineTimeout => .ok (.lineTimeout text)
  | .ack => .ok .ack
  | .extended => .ok .extended
  | .help => .error .help
  | .version => .error .version

end Setting

end Command

end Multidrop
