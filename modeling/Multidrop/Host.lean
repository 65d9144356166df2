import Multidrop.Call

/-!
# Hosts

A host is a bus and the clients on it. It runs jobs, several at once if
asked to: each job is a call that takes turns until it has to wait, and the
jobs take their turns in order.

All jobs take turns again after a pass in which one of them ended or the lock
was handed on. Where nothing can move, time does: the clock goes to the next
moment at which something can happen, and never beyond the limit on the run.
Jobs that are unfinished then are given up, in order. What they had taken
from the wire is lost, what they had queued or put into a buffer stays, and
the lock goes to whoever stands in line.

## Main definitions

* `Job`: A task, the client that does it, and the limit on its time.
* `Host`: The bus and the clients.
* `Host.run`: Run jobs to their end.
* `Outcome`: How a job ends.
-/

namespace Multidrop

/-- A task, the client that does it, and the limit on its time. -/
structure Job where
  task : Task
  client : Option Nat := none
  limit : Option Duration := none
  deriving DecidableEq

/-- How a job ends. -/
inductive Outcome where
  | finished (moment : Duration) (result : Call.Result)
  /-- The job was given up. -/
  | cancelled

/-- A bus and the clients on it. -/
structure Host where
  bus : Bus := {}
  clients : List Client := []
  deriving DecidableEq

namespace Host

/-- Add a client. -/
def addClient (destination : UInt8) (config : Client.Config) (h : Host) :
    Except Client.Failure (Client × Host) :=
  match Client.create destination config with
  | .error e => .error e
  | .ok client => .ok (client, { h with clients := h.clients ++ [client] })

/-- Buffer stream bytes for the device of a client. -/
def write (client : Nat) (bytes : List UInt8) (h : Host) : Host :=
  { h with clients := h.clients.modify client (·.write bytes) }

/-- Queue bytes on the link. -/
def queue (bytes : List UInt8) (h : Host) : Host :=
  { h with bus := { h.bus with link := h.bus.link.queue bytes } }

/-- Queue a frame on the link. -/
def queueFrame (f : Frame) (h : Host) : Except Frame.Error Host :=
  match h.bus.link.queueFrame f with
  | .error e => .error e
  | .ok link => .ok { h with bus := { h.bus with link } }

/-- A job that is being run. -/
inductive Seat where
  | running (call : Call)
  | ended (client : Client) (outcome : Outcome)

/-- Whether a job has ended. -/
def Seat.isEnded : Seat → Bool
  | .running _ => false
  | .ended .. => true

/-- The client of a job, as it is now. -/
def Seat.client : Seat → Client
  | .running call => call.client
  | .ended client _ => client

/-- How a job ended. One that has not is given up. -/
def Seat.outcome : Seat → Outcome
  | .running _ => .cancelled
  | .ended _ outcome => outcome

/-- How many turns that take nothing off the wire a call may take at one
    moment, and how many passes a run may make. A call whose pauses and timeouts
    are all zero would go on for ever. -/
def patience : Nat := 1000000000000

/-- Let a call take turns until it has to wait. Only those that take nothing off
    the wire count. -/
def advance (id : Nat) (turns : Nat) (call : Call) (bus : Bus) : Seat × Bus :=
  match call.step id bus with
  | (.again next, left) =>
    if _h : left.wire.arrivals.weight < bus.wire.arrivals.weight then advance id turns next left
    else
      match turns with
      | 0 => (.running next, left)
      | turns + 1 => advance id turns next left
  | (.waiting, left) => (.running call, left)
  | (.over (client, result), left) => (.ended client (.finished left.now result), left)
termination_by (turns, bus.wire.arrivals.weight)

/-- Let all jobs take their turns in order, and say whether one of them ended
    or the lock was handed on. The jobs are numbered from `id`. -/
def pass (id : Nat) : List Seat → Bus → List Seat × Bus × Bool
  | [], bus => ([], bus, false)
  | .running call :: seats, bus =>
    let turned := advance id patience call bus
    let rest := pass (id + 1) seats turned.2
    (turned.1 :: rest.1, rest.2.1,
      turned.1.isEnded || Lock.handedOver bus.lock turned.2.lock || rest.2.2)
  | seat :: seats, bus =>
    let rest := pass (id + 1) seats bus
    (seat :: rest.1, rest.2)

/-- Give up the jobs that have not ended. -/
def cancel (id : Nat) : List Seat → Bus → List Seat × Bus
  | [], bus => ([], bus)
  | .running call :: seats, bus =>
    let rest := cancel (id + 1) seats { bus with lock := bus.lock.leave id }
    (.ended call.client .cancelled :: rest.1, rest.2)
  | seat :: seats, bus =>
    let rest := cancel (id + 1) seats bus
    (seat :: rest.1, rest.2)

/-- The moments at which something can happen: the end of the run, the ones
    the jobs wait for, and the one the first arrival is due at. -/
def moments (limit : Option Duration) (seats : List Seat) (bus : Bus) : List Duration :=
  let waking :=
    seats.flatMap fun seat =>
      match seat with
      | .running call => call.wakes
      | .ended .. => []
  limit.toList ++ waking ++ (bus.wire.arrivals.head?.map (·.1)).toList

/-- The next moment at which something can happen. -/
def nextMoment? (limit : Option Duration) (seats : List Seat) (bus : Bus) : Option Duration :=
  ((moments limit seats bus).filter (bus.now < ·)).min?

/-- Run jobs until all have ended, or until the limit. -/
def runSeats (limit : Option Duration) : Nat → List Seat → Bus → List Seat × Bus
  | 0, seats, bus => cancel 0 seats bus
  | passes + 1, seats, bus =>
    let (seats, bus, moved) := pass 0 seats bus
    if seats.all Seat.isEnded then (seats, bus)
    else if moved then runSeats limit passes seats bus
    else if limit.any (· ≤ bus.now) then cancel 0 seats bus
    else
      match nextMoment? limit seats bus with
      | none => cancel 0 seats bus
      | some moment => runSeats limit passes seats { bus with now := moment }

/-- The client a job is for. A job without one has a client that is not
    kept. -/
def clientOf (h : Host) (job : Job) : Client :=
  (job.client.bind (h.clients[·]?)).getD {}

/-- The call of a job that starts now. -/
def callOf (h : Host) (job : Job) : Call where
  task := job.task
  client := h.clientOf job
  started := h.bus.now
  limit := job.limit

/-- Put the clients of jobs back. -/
def keepClients (clients : List Client) : List (Job × Seat) → List Client
  | [] => clients
  | (job, seat) :: more =>
    match job.client with
    | none => keepClients clients more
    | some index => keepClients (clients.set index seat.client) more

/-- Run jobs to their end, at most until `limit`. -/
def run (limit : Option Duration) (jobs : List Job) (h : Host) : List Outcome × Host :=
  let ran := runSeats limit patience (jobs.map fun job => .running (h.callOf job)) h.bus
  (ran.1.map Seat.outcome,
    { bus := ran.2, clients := keepClients h.clients (jobs.zip ran.1) })

end Host

end Multidrop
