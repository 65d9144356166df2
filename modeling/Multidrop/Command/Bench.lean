import Multidrop.Command.FileTree
import Multidrop.Command.Run
import Multidrop.Transport.Address

/-!
# Benches

A bench is a place to try commands without a bus: some files, and perhaps a
device behind an endpoint. There is no network around it, so every host is out
of reach, and a device is only found behind a path. Time is that of the host,
and passes only while a job waits.

## Main definitions

* `Bench`: The place, and what has been printed and sent there.
* `Bench.surroundings`: A bench as the surroundings of a command.
* `Bench.run`: Run a command line on a bench.
* `Bench.frames`: The frames that have reached the device.
-/

namespace Multidrop

namespace Command

/-- A place to try commands. -/
structure Bench where
  files : FileTree := .usual
  device : Option (Transport.Endpoint × Device) := none
  build : Build := ⟨"unknown", "unknown"⟩
  /-- All that has been printed. -/
  printed : String := ""
  /-- All that has been sent to the device. -/
  sent : List UInt8 := []

namespace Bench

/-- A socket where a file was expected. -/
def noSuchDevice : Transport.Fault := .ofNumber 6

/-- A directory where a file was expected. -/
def isDirectory : Transport.Fault := .ofNumber 21

/-- An address within a network, and no network named. -/
def invalidArgument : Transport.Fault := .ofNumber 22

/-- Nobody listens. -/
def refused : Transport.Fault := .ofNumber 111

/-- There is no way to a host. -/
def unreachable : Transport.Fault := .ofNumber 101

/-- There is no address to reach a host from. -/
def notAssigned : Transport.Fault := .ofNumber 99

/-- The addresses of a host are not found. -/
def lookupFailed (reason : String) : Transport.Fault :=
  { kind := .other, text := some s!"failed to lookup address information: {reason}" }

/-- The path or the name of a socket cannot be used. -/
def invalidPath (reason : String) : Transport.Fault :=
  { kind := .invalidInput, text := some reason }

/-- The least length of a path that is too long for a socket. -/
def pathLimit : Nat := 108

/-- The tree of files, with the socket of the device. -/
def tree (b : Bench) : FileTree :=
  match b.device with
  | some (.unix path, _) => b.files.add path .socket
  | _ => b.files

/-- Read a file. -/
def readFile (path : String) (b : Bench) : Except Transport.Fault (List UInt8) :=
  match b.tree.find path with
  | .ok (.file content) => .ok content
  | .ok .directory => .error isDirectory
  | .ok .socket => .error noSuchDevice
  | .error fault => .error fault

/-- The fault of connecting to an address. -/
def addressFault : Transport.Address → Transport.Fault
  | .short _ => unreachable
  | .long groups network =>
    if Transport.Address.isLocal groups ∧ network = 0 then invalidArgument
    else if Transport.Address.isGroup groups ∨ Transport.Address.holdsShort groups then
      unreachable
    else notAssigned

/-- The name of the host itself, whose address is known. -/
def ownName : String := "localhost"

/-- The fault of connecting to a host. -/
def hostFault (host : List Char) : Transport.Fault :=
  if '\x00' ∈ host then FileTree.zeroInside
  else
    match Transport.Address.ofText? host with
    | some address => addressFault address
    | none =>
      if host.map Char.toLower = ownName.toList then unreachable
      else if Transport.isName host then
        lookupFailed "Temporary failure in name resolution"
      else lookupFailed "Name or service not known"

/-- The fault of connecting to a host and a port. -/
def tcpFault (address : String) : Transport.Fault :=
  let host := Transport.hostText address
  let port := Transport.portText address
  match Transport.portFault? address with
  | some fault => fault
  | none =>
    match Transport.Address.ofBrackets? host with
    | some found => if port.all Char.isDigit then addressFault found else hostFault host
    | none => hostFault host

/-- The fault of a path that cannot be that of a socket. One that begins with
    a zero is a name without a place in the tree, where nobody listens. -/
def socketFault? (path : String) : Option Transport.Fault :=
  if path.startsWith "\x00" then
    some <|
      if pathLimit < path.utf8ByteSize then
        invalidPath "abstract socket name must be shorter than SUN_LEN"
      else refused
  else if path.contains '\x00' then
    some (invalidPath "paths must not contain interior null bytes")
  else if pathLimit ≤ path.utf8ByteSize then
    some (invalidPath "path must be shorter than SUN_LEN")
  else none

/-- Connect to a path. What is there and is not a socket refuses
    connections. -/
def connectPath (path : String) (b : Bench) : Except Transport.Fault Wire :=
  match socketFault? path with
  | some fault => .error fault
  | none =>
    match b.tree.find path, b.device with
    | .ok .socket, some (_, device) => .ok { device }
    | .ok _, _ => .error refused
    | .error fault, _ => .error fault

/-- Connect to an endpoint. -/
def connect (endpoint : Transport.Endpoint) (b : Bench) : Except Transport.Fault Wire :=
  match endpoint with
  | .tcp address => .error (tcpFault address)
  | .unix path => b.connectPath path

/-- A bench as the surroundings of a command. -/
def surroundings (build : Build) : Surroundings (StateM Bench) where
  readFile path := return (← get).readFile path
  connect endpoint := return (← get).connect endpoint
  run job h := do
    let (outcomes, h) := h.run none [job]
    modify fun b => { b with sent := h.bus.wire.sent }
    return (outcomes.headD .cancelled, h)
  print text := modify fun b => { b with printed := b.printed ++ text }
  build := build

/-- The frames that have reached the device. -/
def frames (b : Bench) : List Frame.Received :=
  match b.device with
  | some (_, device) => device.frames b.sent
  | none => []

/-- Run what a command line asks for on a bench. -/
def run (i : Invocation) (b : Bench) : Except Failure Unit × Bench :=
  (i.run (surroundings b.build)).run b

end Bench

end Command

end Multidrop
