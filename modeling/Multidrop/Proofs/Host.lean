import Multidrop.Host

/-!
# What Is Done With a Host

A host does nothing by itself. Arrivals come, the device gets scripts, writes
get rules and credit, time passes, clients are created and given bytes, frames
are queued, and jobs are run, one thing after the other. What can be seen of a
host after each of these is what it has come to, the clock, what was sent, the
link with its queues and counts, and the clients with their buffers. What is
still to be read can not be seen.

## Main definitions

* `Host.Action`: What can be done with a host.
* `Host.Report`: What an action comes to.
* `Host.View`: What can be seen after an action.
* `Host.act`, `Host.perform`: Doing it.
-/

namespace Multidrop

namespace Host

/-- What can be done with a host. -/
inductive Action where
  /-- Arrivals come, their delays counted from now. -/
  | arrive (script : Arrivals)
  /-- The device gets scripts for later flushes. -/
  | answer (scripts : List Arrivals)
  /-- Later writes and flushes get rules, and writes a credit. -/
  | restrict (writeRules : List Wire.WriteRule) (flushRules : List Wire.FlushRule)
      (credit : Option Nat)
  | elapse (time : Duration)
  | create (destination : UInt8) (config : Client.Config)
  | queue (bytes : List UInt8)
  | queueFrame (f : Frame)
  /-- Buffer stream bytes for the device of a client. -/
  | write (client : Nat) (bytes : List UInt8)
  /-- Run jobs to their end, or give them up after a time. -/
  | run (time : Option Duration) (jobs : List Job)

/-- What an action comes to. -/
inductive Report where
  | done
  | refused (e : Frame.Error)
  | created (client : Client)
  /-- There is no client. The host is as it was, also where whoever asked for the
      client was stopped. -/
  | denied (cause : Client.Failure)
  | ran (outcomes : List Outcome)

/-- What can be seen of a host after an action. -/
structure View where
  report : Report
  now : Duration
  /-- All that has been sent so far. -/
  sent : List UInt8
  link : Link
  clients : List Client

/-- A host whose wire has changed. -/
def onWire (change : Wire → Wire) (h : Host) : Host :=
  { h with bus := { h.bus with wire := change h.bus.wire } }

/-- Do something with a host. -/
def act (h : Host) : Action → Report × Host
  | .arrive script => (.done, h.onWire (·.deliver h.bus.now script))
  | .answer scripts =>
    (.done, h.onWire fun w => { w with device := w.device.addScripts scripts })
  | .restrict writeRules flushRules credit =>
    (.done, h.onWire fun w => { w with
      writeRules := w.writeRules ++ writeRules
      flushRules := w.flushRules ++ flushRules
      credit })
  | .elapse time => (.done, { h with bus := { h.bus with now := h.bus.now + time } })
  | .create destination config =>
    match h.addClient destination config with
    | .error cause => (.denied cause, h)
    | .ok (client, h) => (.created client, h)
  | .queue bytes => (.done, h.queue bytes)
  | .queueFrame f =>
    match h.queueFrame f with
    | .error e => (.refused e, h)
    | .ok h => (.done, h)
  | .write client bytes => (.done, h.write client bytes)
  | .run time jobs =>
    let ran := h.run (time.map (h.bus.now + ·)) jobs
    (.ran ran.1, ran.2)

/-- What can be seen of a host after an action that has come to this. -/
def view (report : Report) (h : Host) : View where
  report := report
  now := h.bus.now
  sent := h.bus.wire.sent
  link := h.bus.link
  clients := h.clients

/-- Do one thing after the other, and see what comes of each. -/
def perform (h : Host) : List Action → List View × Host
  | [] => ([], h)
  | a :: actions =>
    let done := h.act a
    let rest := done.2.perform actions
    (done.2.view done.1 :: rest.1, rest.2)

end Host

end Multidrop
