import Multidrop.Frame.Decode
import Multidrop.Link.Error

/-!
# Links

The near end of a bus, shared by all who talk over it. Frames and raw bytes
are queued first and sent later: `outbound` is what is queued, and `inFlight`
what a sender has taken from there and the wire has not accepted yet. Nothing
is lost between the two when a sender is interrupted.

## Main definitions

* `Link.Config`: The address of this end and what it accepts.
* `Link.Statistics`: What has happened so far.
* `Link`: The queues, with the configuration and the counts.
* `Link.queue`, `Link.queueFrame`: Put something behind what is queued.
-/

namespace Multidrop

namespace Link

/-- The address of this end and what it accepts. -/
structure Config where
  /-- The source of every frame sent. -/
  source : UInt8 := 0
  /-- What is accepted of a frame received. -/
  limits : Frame.Limits := {}
  /-- The most bytes thrown away at a header that cannot be trusted. -/
  resyncWindow : Nat := 8192
  deriving DecidableEq

/-- Counts of what has happened on a link. -/
structure Statistics where
  /-- Frames queued. -/
  framesSent : Nat := 0
  /-- Bytes the wire has accepted. -/
  bytesSent : Nat := 0
  /-- Frames received whole, from whomever. -/
  framesReceived : Nat := 0
  /-- Headers that could not be trusted. -/
  resyncs : Nat := 0
  /-- Bytes thrown away behind them. -/
  bytesDiscarded : Nat := 0
  /-- Frames whose checksum did not match. -/
  crcMismatches : Nat := 0
  /-- Frames from someone else than expected. -/
  strayFrames : Nat := 0
  /-- Frames too short to hold a sub-frame. -/
  shortFrames : Nat := 0
  deriving DecidableEq

end Link

/-- The near end of a bus. -/
structure Link where
  config : Link.Config := {}
  /-- What is queued. -/
  outbound : List UInt8 := []
  /-- What a sender has taken and the wire has not accepted yet. -/
  inFlight : List UInt8 := []
  statistics : Link.Statistics := {}
  deriving DecidableEq

namespace Link

/-- A link with nothing queued. Its address has to fit in seven bits. -/
def create (config : Config) : Except Error Link :=
  if config.source > Frame.broadcast then .error (.frame (.invalidAddress config.source))
  else .ok { config }

/-- Put bytes behind what is queued. -/
def queue (bytes : List UInt8) (l : Link) : Link :=
  { l with outbound := l.outbound ++ bytes }

/-- Put a frame behind what is queued. A frame that is refused changes
    nothing. -/
def queueFrame (f : Frame) (l : Link) : Except Frame.Error Link :=
  match f.encode with
  | .error e => .error e
  | .ok bytes =>
    .ok { l.queue bytes with
      statistics := { l.statistics with framesSent := l.statistics.framesSent + 1 } }

/-- Take all that is queued, to be sent after what is already in flight. -/
def takeOutbound (l : Link) : Link :=
  { l with outbound := [], inFlight := l.inFlight ++ l.outbound }

/-- Note that the wire has accepted the first `count` bytes in flight. -/
def accepted (count : Nat) (l : Link) : Link :=
  { l with
    inFlight := l.inFlight.drop count
    statistics := { l.statistics with bytesSent := l.statistics.bytesSent + count } }

/-- Note that a header was not trusted and `discarded` bytes went with it. -/
def resynchronized (discarded : Nat) (l : Link) : Link :=
  { l with
    statistics := { l.statistics with
      resyncs := l.statistics.resyncs + 1
      bytesDiscarded := l.statistics.bytesDiscarded + discarded } }

/-- Note a checksum that did not match. -/
def crcMismatch (l : Link) : Link :=
  { l with
    statistics := { l.statistics with crcMismatches := l.statistics.crcMismatches + 1 } }

/-- Note a frame received whole. -/
def frameReceived (l : Link) : Link :=
  { l with
    statistics := { l.statistics with framesReceived := l.statistics.framesReceived + 1 } }

/-- Note a frame from someone else than expected. -/
def strayFrame (l : Link) : Link :=
  { l with statistics := { l.statistics with strayFrames := l.statistics.strayFrames + 1 } }

/-- Note a frame too short to hold a sub-frame. -/
def shortFrame (l : Link) : Link :=
  { l with statistics := { l.statistics with shortFrames := l.statistics.shortFrames + 1 } }

end Link

end Multidrop
