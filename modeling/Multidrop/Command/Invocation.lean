import Multidrop.Command.Scan

/-!
# Invocations

What a command line asks for: a command with its arguments, and what holds
for every command. Options that are not given have defaults. An option given
both in front of the command and behind it has the value behind it, and the
endpoint may come from the environment instead.

## Main definitions

* `Order`: A command with its arguments.
* `Invocation`: What a command line asks for.
* `Invocation.parse`: Read a command line.
-/

namespace Multidrop

namespace Command

/-- Apply a file of configuration commands. -/
structure Configure where
  file : String
  target : UInt8
  channel : UInt32
  timeout : String
  lineTimeout : String
  deriving DecidableEq

/-- Read registers. -/
structure ReadRegisters where
  target : UInt8
  register : UInt32
  count : UInt32
  kind : Register.Kind
  timeout : String
  deriving DecidableEq

/-- Write registers. -/
structure WriteRegisters where
  target : UInt8
  register : UInt32
  kind : Register.Kind
  values : List String
  ack : Bool
  timeout : String
  deriving DecidableEq

/-- A command with its arguments. -/
inductive Order where
  | configure (order : Configure)
  | readRegisters (order : ReadRegisters)
  | writeRegisters (order : WriteRegisters)
  | version (extended : Bool)
  deriving DecidableEq

/-- What holds for every command. -/
structure Common where
  connect : Option String
  source : UInt8
  strictCrc : Bool
  format : Option Report.Format
  logFormat : LogFormat
  logLevel : LogLevel
  deriving DecidableEq

/-- What a command line asks for. -/
structure Invocation where
  common : Common
  order : Order
  deriving DecidableEq

/-- The device that is meant if none is named. -/
def defaultTarget : UInt8 := 1

/-- The stream channel that is meant if none is named. -/
def defaultChannel : UInt32 := 1

/-- How long to wait for a register reply. -/
def replyTimeout : String := "50ms"

/-- How long to wait for stream bytes. Configuration commands can be slow. -/
def pollTimeout : String := "300ms"

/-- How long to wait for the answer to a configuration command. -/
def answerTimeout : String := "5s"

/-- The target at a place. -/
def Scan.target (s : Scan) : UInt8 :=
  (s.find? fun | .target a => some a | _ => none).getD defaultTarget

/-- The timeout at a place. -/
def Scan.timeout (s : Scan) (default : String) : String :=
  (s.find? fun | .timeout t => some t | _ => none).getD default

/-- The register at a place. -/
def Scan.register? (s : Scan) : Option UInt32 :=
  s.find? fun | .register n => some n | _ => none

/-- The type of register values at a place. -/
def Scan.kind? (s : Scan) : Option Register.Kind :=
  s.find? fun | .kind k => some k | _ => none

/-- Make sense of the place behind a command. -/
def Order.ofScan? (level : Level) (s : Scan) : Option Order :=
  match level with
  | .top => none
  | .configure => do
    let file ← s.words.head?
    some <| .configure {
      file
      target := s.target
      channel := (s.find? fun | .channel n => some n | _ => none).getD defaultChannel
      timeout := s.timeout pollTimeout
      lineTimeout :=
        (s.find? fun | .lineTimeout t => some t | _ => none).getD answerTimeout }
  | .readRegisters => do
    let register ← s.register?
    let kind ← s.kind?
    some <| .readRegisters {
      target := s.target
      register
      count := (s.find? fun | .count n => some n | _ => none).getD 1
      kind
      timeout := s.timeout replyTimeout }
  | .writeRegisters => do
    let register ← s.register?
    let kind ← s.kind?
    if s.words.isEmpty then none
    else
      some <| .writeRegisters {
        target := s.target
        register
        kind
        values := s.words.reverse
        ack := s.settings.contains .ack
        timeout := s.timeout replyTimeout }
  | .version => some (.version (s.settings.contains .extended))

/-- Make sense of what holds for every command, given the places behind the
    command and in front of it and the endpoint of the environment. -/
def Common.ofScans (inner outer : Scan) (environment : Option String) : Common where
  connect :=
    let given? (s : Scan) := s.find? fun | .connect e => some e | _ => none
    (given? inner <|> given? outer) <|> environment
  source :=
    let given? (s : Scan) := s.find? fun | .source a => some a | _ => none
    (given? inner <|> given? outer).getD 0
  strictCrc := inner.settings.contains .strictCrc || outer.settings.contains .strictCrc
  format :=
    let given? (s : Scan) := s.find? fun | .format f => some f | _ => none
    given? inner <|> given? outer
  logFormat :=
    let given? (s : Scan) := s.find? fun | .logFormat f => some f | _ => none
    (given? inner <|> given? outer).getD .text
  logLevel :=
    let given? (s : Scan) := s.find? fun | .logLevel l => some l | _ => none
    (given? inner <|> given? outer).getD .warn

/-- Read a command line, given the endpoint of the environment. The place
    behind the command is made sense of before the place in front of it. -/
def Invocation.parse (environment : Option String) (arguments : List String) :
    Except UsageError Invocation := do
  let line ← Scan.line {} arguments
  match line.command with
  | none =>
    let outer ← line.top.resolve
    if outer.settings.isEmpty ∧ environment.isNone then .error .nothingGiven
    else .error .missingCommand
  | some (level, scan) =>
    let inner ← scan.resolve
    match Order.ofScan? level inner with
    | none => .error .missingArgument
    | some order =>
      let outer ← line.top.resolve
      .ok { common := .ofScans inner outer environment, order }

end Command

end Multidrop
