import Multidrop.Bus

/-!
# Draining a Link

Whoever holds the lock can put on the wire what is queued. A drain takes all
that is queued at its start, offers the wire what is in flight until the wire
has accepted all of it, and flushes.

A drain can be given up at any point. What is in flight by then stays there,
and the next drain sends it before anything else, so a frame whose first byte
has been sent is always completed.

## Main definitions

* `Drain`: How far a drain has come.
* `Drain.step`: One turn of a drain.
-/

namespace Multidrop

/-- How far a drain has come. -/
inductive Drain where
  /-- Nothing has been done. -/
  | starting
  /-- What was queued is in flight. -/
  | sending
  /-- The wire has accepted all of it. -/
  | flushing
  deriving DecidableEq

namespace Drain

/-- The error of a fault. -/
def faultError (cause : Transport.Fault) : Link.Error := .transport (.io cause)

/-- Offer the wire what is in flight. A wire that takes nothing is closed,
    and an interrupted call is made again. -/
def offer (bus : Bus) : Turn Drain (Except Link.Error Unit) × Bus :=
  match bus.wire.write bus.now bus.link.inFlight with
  | (.waiting, wire) => (.waiting, { bus with wire })
  | (.failed cause, wire) =>
    if cause.kind = .interrupted then (.again .sending, { bus with wire })
    else (.over (.error (faultError cause)), { bus with wire })
  | (.ready 0, wire) => (.over (.error .closed), { bus with wire })
  | (.ready count, wire) =>
    (.again .sending, { bus with wire, link := bus.link.accepted count })

/-- Flush the wire. An interrupted call is made again. -/
def flush (bus : Bus) : Turn Drain (Except Link.Error Unit) × Bus :=
  match bus.wire.flush bus.now with
  | (.waiting, wire) => (.waiting, { bus with wire })
  | (.failed cause, wire) =>
    if cause.kind = .interrupted then (.again .flushing, { bus with wire })
    else (.over (.error (faultError cause)), { bus with wire })
  | (.ready (), wire) => (.over (.ok ()), { bus with wire })

/-- One turn of a drain. -/
def step (d : Drain) (bus : Bus) : Turn Drain (Except Link.Error Unit) × Bus :=
  match d with
  | .starting => (.again .sending, { bus with link := bus.link.takeOutbound })
  | .sending => if bus.link.inFlight = [] then (.again .flushing, bus) else offer bus
  | .flushing => flush bus

end Drain

end Multidrop
