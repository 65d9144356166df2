import Multidrop.Client
import Multidrop.Client.Line
import Multidrop.Link.Drain
import Multidrop.Link.Reception
import Multidrop.Register.Reply

/-!
# Calls

A call is a task under way: something a client does over its link, or
something done with the link itself. Most calls are exchanges: they stand in
line for the lock, queue their frames, drain the link, and some then wait for
answers before they hand the lock on. Nobody else queues frames, sends or
receives in the meantime.

A read is a loop around such an exchange. As long as the buffer of the client
does not hold what is asked for, it polls the device, and pauses between two
polls without the lock. A poll takes frames until one does not come in time:
the first within the timeout of the client, each further one within its
follow-up time.

A lost answer is no error. A query that is not answered in time gives an
empty reply, and a poll gives what it got.

## Main definitions

* `Task`: What is to be done.
* `Answer`: What it leads to.
* `Stage`: How far a call has come.
* `Call`: A task under way, with its client and the limit on its time.
* `Call.step`: One turn of a call.
* `Call.wakes`: When a waiting call has to be looked at again.
-/

namespace Multidrop

/-- What is to be done. The client has no part in the first two and the
    last. -/
inductive Task where
  /-- Send what is queued on the link. -/
  | flush
  /-- Take one frame from the link. -/
  | receive (onlyFrom : Option UInt8)
  /-- Send what the client has buffered. -/
  | drain
  /-- Ask the device once for stream bytes. -/
  | poll
  /-- Read a number of stream bytes. -/
  | read (size : Nat)
  /-- Read a line of the stream. -/
  | readLine
  /-- Send a register request and wait for the reply. -/
  | query (request : List UInt8)
  /-- Send a register request. -/
  | write (request : List UInt8)
  /-- Nothing, since the request could not be built. -/
  | refuse (cause : Register.Error)
  deriving DecidableEq

namespace Task

/-- Build a request from operations, for what is then to be done with it. -/
def build (operations : List Register.Operation) (task : Register.Request → Task) : Task :=
  match Register.Request.applyAll {} operations with
  | .error e => .refuse e
  | .ok request => task request

/-- Send a request, and wait for the reply if it asks for one. -/
def ofRequest (request : Register.Request) : Task :=
  if request.expectsResponse then .query request.bytes else .write request.bytes

end Task

/-- What a task leads to. -/
inductive Answer where
  | done
  /-- The bytes the link has sent so far. -/
  | sent (total : Nat)
  | frame (received : Option Frame.Received)
  /-- How many stream bytes a poll has brought. -/
  | count (bytes : Nat)
  | bytes (stream : List UInt8)
  | reply (registers : Register.Reply)
  deriving DecidableEq

/-- How far a call has come. -/
inductive Stage where
  /-- The lock has not been asked for. -/
  | fresh
  /-- The call stands in line for the lock. -/
  | queued
  | sending (drain : Drain)
  /-- The call waits for a frame until a deadline. `early` says whether the
      deadline was still to come when it began to wait, and `taken` is how
      many stream bytes have come so far. -/
  | receiving (deadline : Option Duration) (early : Bool) (taken : Nat) (reception : Reception)
  /-- The call does nothing until a given moment. -/
  | pausing (moment : Duration)
  deriving DecidableEq

/-- A task under way. -/
structure Call where
  task : Task
  client : Client := {}
  started : Duration := 0
  /-- The longest the call may take. -/
  limit : Option Duration := none
  stage : Stage := .fresh
  deriving DecidableEq

namespace Call

/-- How a call ends. -/
abbrev Result := Except Link.Error Answer

/-- A turn of a call. What is over gives the client back. -/
abbrev Move := Turn Call (Client × Result) × Bus

/-- Go on at another stage. -/
def goTo (c : Call) (stage : Stage) (bus : Bus) : Move :=
  (.again { c with stage }, bus)

/-- End the call. -/
def finish (c : Call) (result : Result) (bus : Bus) : Move :=
  (.over (c.client, result), bus)

/-- Hand the lock on and end the call. -/
def handOn (c : Call) (result : Result) (bus : Bus) : Move :=
  c.finish result { bus with lock := bus.lock.release }

/-- What the buffer of the client already answers, and the client after
    that. -/
def buffered (c : Call) : Option Answer × Client :=
  match c.task with
  | .read size =>
    if size ≤ c.client.readBuffer.length then
      (some (.bytes (c.client.readBuffer.take size)),
        { c.client with readBuffer := c.client.readBuffer.drop size })
    else (none, c.client)
  | .readLine =>
    let line := Client.takeLine c.client.readBuffer
    (line.1.map .bytes, { c.client with readBuffer := line.2 })
  | _ => (none, c.client)

/-- Answer from the buffer or stand in line. -/
def enqueue (id : Nat) (c : Call) (bus : Bus) : Move :=
  let c' := { c with client := c.buffered.2 }
  match c.buffered.1 with
  | some answer => c'.finish (.ok answer) bus
  | none => c'.goTo .queued { bus with lock := bus.lock.request id }

/-- Begin a call. A request that could not be built ends it at once. -/
def start (id : Nat) (c : Call) (bus : Bus) : Move :=
  match c.task with
  | .refuse cause => c.finish (.error (.register cause)) bus
  | _ => c.enqueue id bus

/-- Queue a frame and begin to send. A frame that is refused ends the call. -/
def sendFrame (c : Call) (f : Frame) (bus : Bus) : Move :=
  match bus.link.queueFrame f with
  | .error e => c.handOn (.error (.frame e)) bus
  | .ok link => c.goTo (.sending .starting) { bus with link }

/-- Queue the stream bytes of the client and begin to send. -/
def sendStream (c : Call) (bus : Bus) : Move :=
  match c.client.queueWrites bus.link with
  | (.error e, client, link) =>
    { c with client }.handOn (.error (.frame e)) { bus with link }
  | (.ok (), client, link) => { c with client }.goTo (.sending .starting) { bus with link }

/-- Wait for a frame until a deadline. -/
def await (c : Call) (deadline : Option Duration) (taken : Nat) (bus : Bus) : Move :=
  c.goTo (.receiving deadline (deadline.all (bus.now < ·)) taken .start) bus

/-- What the holder of the lock does first. -/
def enter (c : Call) (bus : Bus) : Move :=
  match c.task with
  | .flush => c.goTo (.sending .starting) bus
  | .receive _ => c.await none 0 bus
  | .drain => c.sendStream bus
  | .poll => c.sendFrame (c.client.pollFrame bus.link) bus
  | .read _ => c.sendFrame (c.client.pollFrame bus.link) bus
  | .readLine => c.sendFrame (c.client.pollFrame bus.link) bus
  | .query request => c.sendFrame (c.client.frame bus.link request true) bus
  | .write request => c.sendFrame (c.client.frame bus.link request false) bus
  | .refuse cause => c.handOn (.error (.register cause)) bus

/-- What follows when all is sent. -/
def sent (c : Call) (bus : Bus) : Move :=
  match c.task with
  | .flush => c.handOn (.ok (.sent bus.link.statistics.bytesSent)) bus
  | .receive _ => c.handOn (.ok .done) bus
  | .drain => c.handOn (.ok .done) bus
  | .write _ => c.handOn (.ok .done) bus
  | .refuse _ => c.handOn (.ok .done) bus
  | .poll => c.await (some (bus.now + c.client.config.timeout)) 0 bus
  | .read _ => c.await (some (bus.now + c.client.config.timeout)) 0 bus
  | .readLine => c.await (some (bus.now + c.client.config.timeout)) 0 bus
  | .query _ => c.await (some (bus.now + c.client.config.timeout)) 0 bus

/-- End a poll: hand the lock on, and answer from the buffer or pause. -/
def endRound (c : Call) (taken : Nat) (bus : Bus) : Move :=
  match c.task with
  | .poll => c.handOn (.ok (.count taken)) bus
  | _ =>
    let c' := { c with client := c.buffered.2 }
    match c.buffered.1 with
    | some answer => c'.handOn (.ok answer) bus
    | none =>
      c'.goTo (.pausing (bus.now + c.client.config.pollRate))
        { bus with lock := bus.lock.release }

/-- Go without an answer. -/
def lost (c : Call) (taken : Nat) (bus : Bus) : Move :=
  match c.task with
  | .query _ => c.handOn (.ok (.reply {})) bus
  | _ => c.endRound taken bus

/-- Take the answer to a poll. Anything but stream bytes ends the poll.
    Stream bytes of any channel give the device time for more, and those of
    the channel of the client are kept. -/
def takeChunk (c : Call) (taken : Nat) (payload : List UInt8) (bus : Bus) : Move :=
  match Stream.parse payload with
  | .error e => c.handOn (.error (.frame (.varuint e))) bus
  | .ok none => c.endRound taken bus
  | .ok (some chunk) =>
    let deadline := some (bus.now + c.client.config.followup)
    if chunk.id ≠ Subframe.toHost then c.endRound taken bus
    else if chunk.channel ≠ c.client.config.channel then c.await deadline taken bus
    else
      { c with client := c.client.receive chunk.data }.await deadline
        (taken + chunk.data.length) bus

/-- Take the answer to a query. -/
def takeReply (c : Call) (payload : List UInt8) (bus : Bus) : Move :=
  match Register.Reply.parse payload with
  | .error e => c.handOn (.error (.frame (.varuint e))) bus
  | .ok reply => c.handOn (.ok (.reply reply)) bus

/-- Take a frame. -/
def takeFrame (c : Call) (taken : Nat) (f : Frame.Received) (bus : Bus) : Move :=
  match c.task with
  | .receive _ => c.handOn (.ok (.frame (some f))) bus
  | .query _ => c.takeReply f.payload bus
  | _ => c.takeChunk taken f.payload bus

/-- What follows when a reception is over. A frame that is of no use does not
    end the wait unless the deadline had passed before it, and an error that
    passes counts as a lost answer. -/
def received (c : Call) (deadline : Option Duration) (early : Bool) (taken : Nat)
    (result : Reception.Result) (bus : Bus) : Move :=
  match result with
  | .ok (some f) => c.takeFrame taken f bus
  | .ok none =>
    match c.task with
    | .receive _ => c.handOn (.ok (.frame none)) bus
    | _ => if early then c.await deadline taken bus else c.lost taken bus
  | .error e =>
    match c.task with
    | .receive _ => c.handOn (.error e) bus
    | _ => if e.isTransient then c.lost taken bus else c.handOn (.error e) bus

/-- The source a call wants frames from. -/
def onlyFrom (c : Call) : Option UInt8 :=
  match c.task with
  | .receive source => source
  | _ => some c.client.destination

/-- One turn of a call whose time is not limited. -/
def work (id : Nat) (c : Call) (bus : Bus) : Move :=
  match c.stage with
  | .fresh => c.start id bus
  | .queued => if bus.lock.holder = some id then c.enter bus else (.waiting, bus)
  | .sending drain =>
    match drain.step bus with
    | (.again drain, bus) => c.goTo (.sending drain) bus
    | (.waiting, bus) => (.waiting, bus)
    | (.over (.error e), bus) => c.handOn (.error e) bus
    | (.over (.ok ()), bus) => c.sent bus
  | .receiving deadline early taken reception =>
    match reception.step c.onlyFrom bus with
    | (.again reception, bus) => c.goTo (.receiving deadline early taken reception) bus
    | (.waiting, bus) =>
      if deadline.any (· ≤ bus.now) then c.lost taken bus else (.waiting, bus)
    | (.over result, bus) => c.received deadline early taken result bus
  | .pausing moment => if moment ≤ bus.now then c.goTo .fresh bus else (.waiting, bus)

/-- When the time of a call is up, if it is limited. -/
def expiry? (c : Call) : Option Duration :=
  c.limit.map (c.started + ·)

/-- One turn of a call. The limit on its time counts once the call has to
    wait: what can be done at that moment is done. -/
def step (id : Nat) (c : Call) (bus : Bus) : Move :=
  match c.work id bus with
  | (.waiting, bus) =>
    match c.limit with
    | none => (.waiting, bus)
    | some limit =>
      if c.started + limit ≤ bus.now then
        c.finish (.error (.timeout limit)) { bus with lock := bus.lock.leave id }
      else (.waiting, bus)
  | move => move

/-- When a waiting call has to be looked at again, whatever the wire does. -/
def wakes (c : Call) : List Duration :=
  let own :=
    match c.stage with
    | .receiving deadline .. => deadline.toList
    | .pausing moment => [moment]
    | _ => []
  c.expiry?.toList ++ own

end Call

end Multidrop
