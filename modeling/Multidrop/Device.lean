import Multidrop.Arrival
import Multidrop.Frame.Decode

/-!
# Devices

What sits at the far end of a wire, as far as it can be told from what comes
back. A scripted device answers each flush with the next of its scripts,
whatever was sent. A responder listens for frames, whether or not their
checksums match, and answers each of them at once with the next of its
replies.

## Main definitions

* `Device`: A far end.
* `Device.Reply`: What a responder answers to one frame.
* `Device.hear`: What comes back for some bytes.
* `Device.flushed`: What comes back for a flush.
* `Device.frames`: The frames that a device takes.
-/

namespace Multidrop

/-- One part of the reply to a frame. -/
inductive Device.Part where
  /-- A frame. Its source is the address the frame it answers was sent to,
      unless another one is given. -/
  | frame (payload : List UInt8) (source : Option UInt8)
  /-- Bytes as they are. -/
  | raw (bytes : List UInt8)
  deriving DecidableEq

/-- The reply to a frame. -/
structure Device.Reply where
  parts : List Device.Part
  /-- Whether the stream ends behind the reply. -/
  closes : Bool := false
  deriving DecidableEq

/-- The far end of a wire. -/
inductive Device where
  /-- Answers each flush with the next of some scripts. -/
  | scripted (answers : List Arrivals)
  /-- Answers each frame with the next of some replies. `heard` is what has
      come in and is not a whole frame yet. -/
  | responder (replies : List Device.Reply) (heard : List UInt8)
  deriving DecidableEq

namespace Device

/-- A part of a reply as it arrives. -/
def Part.arrival? (asked : Frame.Received) : Part → Option Arrival
  | .frame payload source =>
      Arrival.ofBytes? (Frame.layout (source.getD asked.destination) asked.source payload)
  | .raw bytes => Arrival.ofBytes? bytes

/-- A reply as it arrives, all at once. -/
def Reply.arrivals (asked : Frame.Received) (reply : Reply) : Arrivals :=
  let sent := reply.parts.filterMap (Part.arrival? asked)
  let ending : List Arrival := if reply.closes then [.ended] else []
  (sent ++ ending).map (0, ·)

/-- What comes back for frames, one reply each, and the replies that are
    left. -/
def answer : List Reply → List Frame.Received → Arrivals × List Reply
  | replies, [] => ([], replies)
  | [], _ :: _ => ([], [])
  | reply :: replies, asked :: more =>
    let rest := answer replies more
    (reply.arrivals asked ++ rest.1, rest.2)

/-- The frames that calls of the decoder have taken. -/
def taken (calls : List Frame.Call) : List Frame.Received :=
  calls.filterMap fun call =>
    match call.result with
    | .ok frame => frame
    | .error _ => none

/-- What comes back for some bytes, before they are flushed. -/
def hear (bytes : List UInt8) : Device → Arrivals × Device
  | .scripted answers => ([], .scripted answers)
  | .responder replies heard =>
    let (calls, rest) := Frame.feed {} heard bytes
    let (arrivals, replies) := answer replies (taken calls)
    (arrivals, .responder replies rest)

/-- What comes back for a flush. -/
def flushed : Device → Arrivals × Device
  | .scripted [] => ([], .scripted [])
  | .scripted (answer :: answers) => (answer, .scripted answers)
  | .responder replies heard => ([], .responder replies heard)

/-- The frames among some bytes that a device takes. It is gone once it has
    closed the stream. -/
def frames (bytes : List UInt8) (d : Device) : List Frame.Received :=
  let all := taken (Frame.decodeAll {} bytes).1
  match d with
  | .scripted _ => all
  | .responder replies _ =>
    match replies.findIdx? (·.closes) with
    | some last => all.take (last + 1)
    | none => all

/-- Add scripts for later flushes. A responder takes none. -/
def addScripts (scripts : List Arrivals) : Device → Device
  | .scripted answers => .scripted (answers ++ scripts)
  | .responder replies heard => .responder replies heard

end Device

end Multidrop
