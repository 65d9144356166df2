import Multidrop.Duration
import Multidrop.Transport.Fault

/-!
# Arrivals

What can reach the near end of a wire: bytes, the end of the stream, or a
fault of the reading call. A script of arrivals gives each of them a time,
which is a delay as long as the script waits to be started, and a moment once
it has been.

## Main definitions

* `Arrival`: What can reach the near end of a wire.
* `Arrivals`: A script of arrivals.
* `Arrivals.weight`: How much there is to be taken from a script.
* `Arrivals.startingAt`: A script that starts at a given moment.
-/

namespace Multidrop

/-- What can reach the near end of a wire. -/
inductive Arrival where
  /-- Some bytes, at least one. -/
  | data (first : UInt8) (more : List UInt8)
  /-- The end of the stream. -/
  | ended
  /-- A fault of the reading call. -/
  | fault (cause : Transport.Fault)
  deriving DecidableEq

/-- Bytes as an arrival. No bytes are no arrival. -/
def Arrival.ofBytes? : List UInt8 → Option Arrival
  | [] => none
  | first :: more => some (.data first more)

/-- Arrivals in order, each with its time. -/
abbrev Arrivals := List (Duration × Arrival)

/-- How much there is to be taken from an arrival: its bytes, or the arrival
    itself if it brings none. -/
def Arrival.weight : Arrival → Nat
  | .data _ more => more.length + 1
  | .ended => 1
  | .fault _ => 1

/-- How much there is to be taken from a script. -/
def Arrivals.weight : Arrivals → Nat
  | [] => 0
  | (_, arrival) :: later => arrival.weight + Arrivals.weight later

/-- Arrivals whose delays are counted from `now`. -/
def Arrivals.startingAt (now : Duration) (script : Arrivals) : Arrivals :=
  script.map fun (delay, arrival) => (now + delay, arrival)

end Multidrop
