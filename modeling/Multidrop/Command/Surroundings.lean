import Multidrop.Command.Invocation
import Multidrop.Command.Outcome
import Multidrop.Host

/-!
# The Surroundings of a Command

A command reads files, connects to the bus, lets time pass while a job runs,
and prints. How that is done is left to its surroundings, so a command is the
same whether it runs on a real bus or on a bench.

## Main definitions

* `Surroundings`: What a command needs from around it.
* `Step`: A part of a command, which may fail.
* `Failure.ofClient`: The failure of a client that there is not.
* `openHost`: Connect to the bus, for one client.
* `perform`: Run a job of that client.
-/

namespace Multidrop

namespace Command

/-- What the program was built for. -/
structure Build where
  target : String
  profile : String
  deriving DecidableEq

/-- What a command needs from around it. -/
structure Surroundings (m : Type → Type) where
  readFile : String → m (Except Transport.Fault (List UInt8))
  /-- Connect to an endpoint, and give the wire to it. -/
  connect : Transport.Endpoint → m (Except Transport.Fault Wire)
  /-- Run a job to its end. -/
  run : Job → Host → m (Outcome × Host)
  print : String → m Unit
  build : Build

/-- A part of a command, which may fail. -/
abbrev Step (m : Type → Type) (α : Type) := ExceptT Failure m α

variable {m : Type → Type} [Monad m]

/-- Go on with a value, or fail. -/
def orFail {α ε : Type} (failure : ε → Failure) : Except ε α → Step m α
  | .ok value => pure value
  | .error e => throw (failure e)

/-- The link that a command asks for. -/
def Common.linkConfig (c : Common) : Link.Config where
  source := c.source
  limits := { crcPolicy := if c.strictCrc then .enforce else .ignore }

/-- The format of what is printed. -/
def Common.reportFormat (c : Common) : Report.Format :=
  c.format.getD .json

/-- The endpoint that a command asks for. -/
def Common.endpoint (c : Common) : Except Failure Transport.Endpoint :=
  match c.connect with
  | none => .error ⟨usage, "--connect (or SERIALMUX_CONNECT) is required"⟩
  | some text =>
    match Transport.Endpoint.parse text with
    | .error e => .error (.ofTransport "invalid --connect" e)
    | .ok endpoint => .ok endpoint

/-- The failure of a client that there is not. The chunks of a command are far from
    an overflow, which would stop the program in its own way, with no context. -/
def Failure.ofClient : Client.Failure → Failure
  | .refused cause => .ofLink "invalid target" cause
  | .overflow => ⟨stopped, "attempt to add with overflow"⟩

/-- Connect to the bus, for one client. -/
def openHost (s : Surroundings m) (common : Common) (destination : UInt8)
    (config : Client.Config) : Step m Host := do
  let endpoint ← orFail id common.endpoint
  let wire ← (s.connect endpoint : m _) >>= orFail fun cause =>
    .ofTransport "connect failed" (.connect endpoint.display cause)
  let link ← orFail (.ofLink "invalid link configuration") (Link.create common.linkConfig)
  let client ← orFail .ofClient (Client.create destination config)
  return { bus := { link, wire }, clients := [client] }

/-- Run a job of the client. A job that is given up is one that would never
    have ended, as on a wire that is gone. -/
def perform (s : Surroundings m) (context : String) (task : Task) (limit : Option Duration)
    (h : Host) : Step m (Answer × Host) := do
  let (outcome, h) ← (s.run { task, client := some 0, limit } h : m _)
  match outcome with
  | .finished _ (.ok answer) => return (answer, h)
  | .finished _ (.error e) => throw (.ofLink context e)
  | .cancelled => throw (.ofLink context .closed)

/-- Print a text. -/
def print (s : Surroundings m) (text : String) : Step m Unit :=
  (s.print text : m Unit)

end Command

end Multidrop
