import Multidrop.Subframe
import Multidrop.Varuint

/-!
# Stream Sub-frames

A byte stream is tunneled through numbered channels of a device. A stream
sub-frame is an identifier, a channel, a length and that many bytes, the
first three being variable-length numbers. One without data that asks for a
reply is a poll: it lets the device answer with what it has queued.

A reader takes what there is. Where fewer bytes arrive than were announced,
the data is what arrived; where even the three numbers are not all there, no
sub-frame is read.

## Main definitions

* `Chunk`: A stream sub-frame.
* `payload`: The bytes of one.
* `parse`: Read the one at the front of a payload.
-/

namespace Multidrop

namespace Stream

/-- A stream sub-frame. -/
structure Chunk where
  id : UInt32
  channel : UInt32
  data : List UInt8
  deriving DecidableEq

/-- The bytes of a stream sub-frame. -/
def payload (id channel : UInt32) (data : List UInt8) : List UInt8 :=
  Varuint.encode id ++ Varuint.encode channel ++
    Varuint.encode data.length.toUInt32 ++ data

/-- Put a stream sub-frame behind the bytes of a buffer. -/
def appendTo (buffer : List UInt8) (id channel : UInt32) (data : List UInt8) : List UInt8 :=
  buffer ++ Varuint.encode id ++ Varuint.encode channel ++
    Varuint.encode data.length.toUInt32 ++ data

/-- How many bytes a stream sub-frame takes in front of its data. -/
def headerSize (id channel : UInt32) (length : UInt32) : Nat :=
  Varuint.size id + Varuint.size channel + Varuint.size length

/-- Read the stream sub-frame at the front of a payload. The three numbers
    are read one after another whatever the earlier ones gave, so the first
    malformed one decides. -/
def parse (bytes : List UInt8) : Except Varuint.Error (Option Chunk) :=
  match Varuint.read bytes with
  | (.error e, _) => .error e
  | (.ok id, afterId) =>
    match Varuint.read afterId with
    | (.error e, _) => .error e
    | (.ok channel, afterChannel) =>
      match Varuint.read afterChannel with
      | (.error e, _) => .error e
      | (.ok length, rest) =>
        match id, channel, length with
        | some id, some channel, some length =>
          .ok (some { id, channel, data := rest.take length.toNat })
        | _, _, _ => .ok none

end Stream

end Multidrop
