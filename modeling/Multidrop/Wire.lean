import Multidrop.Device

/-!
# Wires

A wire as one end sees it: calls read what has arrived and write what is to
be sent. A call takes effect at once, fails, or has to wait.

How a wire treats its callers is data. Arrivals come at their times and in
their order: only the first counts, even where a later one is due before it.
A write may be cut short, refused, or held back until there is credit, and a
flush may fail; rules say so one call at a time, and a call without a rule
goes through whole.

## Main definitions

* `Wire`: What has arrived, what has been sent, and the rules.
* `Wire.Outcome`: How a call ends.
* `Wire.read`, `Wire.write`, `Wire.flush`: The calls.
-/

namespace Multidrop

/-- What happens to one write. -/
inductive Wire.WriteRule where
  /-- It takes no more than a number of bytes. -/
  | atMost (count : Nat)
  | fault (cause : Transport.Fault)
  deriving DecidableEq

/-- What happens to one flush. -/
inductive Wire.FlushRule where
  | pass
  | fault (cause : Transport.Fault)
  deriving DecidableEq

/-- A wire as one end sees it. -/
structure Wire where
  arrivals : Arrivals := []
  device : Device := .scripted []
  writeRules : List Wire.WriteRule := []
  flushRules : List Wire.FlushRule := []
  /-- How many more bytes may be written, if that is limited. -/
  credit : Option Nat := none
  /-- All that has been sent so far. -/
  sent : List UInt8 := []
  deriving DecidableEq

namespace Wire

/-- How a call on a wire ends. -/
inductive Outcome (α : Type) where
  | ready (result : α)
  | failed (cause : Transport.Fault)
  /-- Nothing can be done yet. -/
  | waiting

/-- Let arrivals come, their delays counted from now. -/
def deliver (now : Duration) (script : Arrivals) (w : Wire) : Wire :=
  { w with arrivals := w.arrivals ++ script.startingAt now }

/-- Read up to `want` bytes. They come from the first arrival alone. No bytes
    mean the end of the stream, which stays. -/
def read (now : Duration) (want : Nat) (w : Wire) : Outcome (List UInt8) × Wire :=
  match w.arrivals with
  | [] => (.waiting, w)
  | (moment, arrival) :: later =>
    if now < moment then (.waiting, w)
    else
      match arrival with
      | .data first more =>
        match (first :: more).drop want with
        | [] => (.ready (first :: more), { w with arrivals := later })
        | next :: left =>
          (.ready ((first :: more).take want),
            { w with arrivals := (moment, .data next left) :: later })
      | .ended => (.ready [], w)
      | .fault cause => (.failed cause, { w with arrivals := later })

/-- Send bytes, and let the device hear them. -/
def send (now : Duration) (bytes : List UInt8) (w : Wire) : Wire :=
  let heard := w.device.hear bytes
  { w with sent := w.sent ++ bytes, device := heard.2 }.deliver now heard.1

/-- Send what the credit allows. -/
def spend (now : Duration) (offered : List UInt8) (w : Wire) : Outcome Nat × Wire :=
  match w.credit with
  | none => (.ready offered.length, w.send now offered)
  | some 0 => (.waiting, w)
  | some credit =>
    let bytes := offered.take credit
    (.ready bytes.length, { w with credit := some (credit - bytes.length) }.send now bytes)

/-- Write bytes, and say how many were taken. The rule for the call is used
    up even where the call then has to wait. A call that may take nothing says
    so at once, whatever the credit. -/
def write (now : Duration) (offered : List UInt8) (w : Wire) : Outcome Nat × Wire :=
  match w.writeRules with
  | [] => w.spend now offered
  | .atMost 0 :: rules => (.ready 0, { w with writeRules := rules })
  | .atMost count :: rules => { w with writeRules := rules }.spend now (offered.take count)
  | .fault cause :: rules => (.failed cause, { w with writeRules := rules })

/-- Let the device answer a flush. -/
def answerFlush (now : Duration) (w : Wire) : Wire :=
  let answered := w.device.flushed
  { w with device := answered.2 }.deliver now answered.1

/-- See to it that what was written reaches the device. -/
def flush (now : Duration) (w : Wire) : Outcome Unit × Wire :=
  match w.flushRules with
  | [] => (.ready (), w.answerFlush now)
  | .pass :: rules => (.ready (), { w with flushRules := rules }.answerFlush now)
  | .fault cause :: rules => (.failed cause, { w with flushRules := rules })

end Wire

end Multidrop
