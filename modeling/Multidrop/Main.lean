import Multidrop.Command.Run
import Std.Async.DNS
import Std.Async.TCP
import Std.Async.Timer

/-!
# The Program

The command line on a real bus. Only what cannot be told by the commands
themselves is done here: files are read, the bridge to the bus is connected
to over TCP, and the clock is looked at. A call takes its turns on a wire
that is kept in memory. Between two turns, what the call has written goes to
the bridge, and what the bridge has sent becomes an arrival.
-/

namespace Multidrop

namespace Program

open Std.Async

/-- The number that an error of the operating system comes with. -/
def codeOf? : IO.Error → Option UInt32
  | .alreadyExists _ code _ => some code
  | .otherError code _ => some code
  | .resourceBusy code _ => some code
  | .resourceVanished code _ => some code
  | .unsupportedOperation code _ => some code
  | .hardwareFault code _ => some code
  | .unsatisfiedConstraints code _ => some code
  | .illegalOperation code _ => some code
  | .protocolError code _ => some code
  | .timeExpired code _ => some code
  | .interrupted _ code _ => some code
  | .noFileOrDirectory _ code _ => some code
  | .invalidArgument _ code _ => some code
  | .permissionDenied _ code _ => some code
  | .resourceExhausted _ code _ => some code
  | .inappropriateType _ code _ => some code
  | .noSuchThing _ code _ => some code
  | .unexpectedEof => none
  | .userError _ => none

/-- The fault of an error. Numbers may come negated, in thirty-two bits. -/
def faultOf (e : IO.Error) : Transport.Fault :=
  match codeOf? e with
  | none => { kind := .other, text := some e.toString }
  | some code => .ofNumber (min code.toNat (-code).toNat)

/-- What an action gives, or the fault it ends with. -/
def caught {α : Type} (action : IO α) : IO (Except Transport.Fault α) := do
  try return .ok (← action)
  catch e => return .error (faultOf e)

/-- The addresses of a host. -/
def addressesOf (host : String) : IO (List Std.Net.IPAddr) := do
  match Std.Net.IPv4Addr.ofString host with
  | some address => return [.v4 address]
  | none => return (← (DNS.getAddrInfo host "").block).toList

/-- Connect to one address. -/
def connectTo (port : UInt16) (address : Std.Net.IPAddr) : IO TCP.Socket.Client := do
  let place : Std.Net.SocketAddress :=
    match address with
    | .v4 addr => .v4 { addr, port }
    | .v6 addr => .v6 { addr, port }
  let client ← TCP.Socket.Client.mk
  (client.connect place).block
  client.noDelay
  return client

/-- Connect to a bridge. -/
def connect (endpoint : Transport.Endpoint) :
    IO (Except Transport.Fault TCP.Socket.Client) := do
  match endpoint with
  | .unix _ => return .error { kind := .unsupported }
  | .tcp address =>
    match Decimal.Range.unsigned16.parse 10 (Transport.portText address) with
    | .error _ => return .error { kind := .invalidInput, text := some "invalid port value" }
    | .ok number =>
      caught do
        match ← addressesOf (String.ofList (Transport.hostText address)) with
        | [] => throw (IO.userError "no address for the host")
        | first :: _ => connectTo (.ofNat number.toNat) first

/-- What a bridge has sent. -/
def arrivalOf? : Option ByteArray → Option Arrival
  | none => some .ended
  | some bytes => Arrival.ofBytes? bytes.data.toList

/-- The most bytes that are taken from a bridge at once. -/
def receiveSize : UInt64 := 4096

/-- Wait until a bridge has sent something, or for a time. -/
def waitFor (client : TCP.Socket.Client) (time : Option Duration) : IO (Option Arrival) := do
  match time with
  | none => return arrivalOf? (← (client.recv? receiveSize).block)
  | some time =>
    let millis : Std.Time.Millisecond.Offset := .ofNat (time / Duration.ofMillis 1 + 1)
    let race : Async (Option Arrival) := do
      Selectable.one #[
        .case (client.recvSelector receiveSize) fun bytes => return arrivalOf? bytes,
        .case (← Selector.sleep millis) fun _ => return none]
    race.block

/-- Send to a bridge what has been written. -/
def forward (client : TCP.Socket.Client) (bus : Bus) : IO Bus := do
  if !bus.wire.sent.isEmpty then
    (client.send ⟨bus.wire.sent.toArray⟩).block
  return { bus with wire := { bus.wire with sent := [] } }

/-- Wait for what a call waits for. A fault becomes an arrival as well. -/
def listen (client : TCP.Socket.Client) (call : Call) (bus : Bus) : IO Bus := do
  let wake := (call.wakes.filter (bus.now < ·)).min?
  let arrival ← caught (waitFor client (wake.map (· - bus.now)))
  let now ← IO.monoNanosNow
  let arrivals : Arrivals :=
    match arrival with
    | .ok (some a) => [(0, a)]
    | .ok none => []
    | .error cause => [(0, .fault cause)]
  return { bus with now, wire := bus.wire.deliver now arrivals }

/-- Let a call take its turns until it is over. -/
partial def carryOn (client : TCP.Socket.Client) (call : Call) (bus : Bus) :
    IO (Host.Seat × Bus) := do
  match Host.advance 0 Host.patience call bus with
  | (.ended owner outcome, bus) => return (.ended owner outcome, ← forward client bus)
  | (.running call, bus) =>
    let bus ← forward client bus
    carryOn client call (← listen client call bus)

/-- Run a job on a bridge. -/
def run (client : TCP.Socket.Client) (job : Job) (h : Host) : IO (Outcome × Host) := do
  let h := { h with bus := { h.bus with now := ← IO.monoNanosNow } }
  let (seat, bus) ← carryOn client (h.callOf job) h.bus
  return (seat.outcome, { bus, clients := Host.keepClients h.clients [(job, seat)] })

/-- The real surroundings of a command. -/
def surroundings (bridge : IO.Ref (Option TCP.Socket.Client)) : Command.Surroundings IO where
  readFile path := caught do
    return (← IO.FS.readBinFile path).data.toList
  connect endpoint := do
    match ← connect endpoint with
    | .error cause => return .error cause
    | .ok client =>
      bridge.set (some client)
      return .ok {}
  run job h := do
    match ← bridge.get with
    | none => return (.cancelled, h)
    | some client => run client job h
  print text := IO.print text
  build := ⟨"unknown", "unknown"⟩

/-- The format of what is printed, if none is asked for: a table on a
    terminal. -/
def onTerminal (c : Command.Common) : IO Command.Common := do
  if ← (← IO.getStdout).isTty then return { c with format := c.format <|> some .table }
  else return c

/-- Run the program. -/
def start (arguments : List String) : IO UInt32 := do
  let environment ← IO.getEnv "SERIALMUX_CONNECT"
  match Command.Invocation.parse environment arguments with
  | .error e =>
    if e.code = 0 then IO.println e.message else IO.eprintln e.message
    return e.code.toUInt32
  | .ok invocation =>
    let invocation := { invocation with common := ← onTerminal invocation.common }
    match ← invocation.run (surroundings (← IO.mkRef none)) with
    | .ok () => return Command.success.toUInt32
    | .error failure =>
      IO.eprintln s!"error: {failure.message}"
      return failure.code.toUInt32

end Program

end Multidrop

/-- The command line. -/
def main (arguments : List String) : IO UInt32 :=
  Multidrop.Program.start arguments
