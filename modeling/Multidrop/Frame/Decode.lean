import Multidrop.Frame

/-!
# Reading Frames from a Buffer

A buffer holds what has arrived so far. `decode` takes one frame from its
front, or says that the frame is not complete yet, or refuses it.

What a call takes from the buffer is part of its meaning. An incomplete frame
and a header that cannot be trusted leave the buffer alone, so that the bytes
are still there when more arrive or when the caller looks for the next magic.
A frame whose checksum does not match is complete: it is taken whether or not
it is delivered, and the next call starts at the frame after it.

## Main definitions

* `CrcPolicy`: What to do about a checksum that does not match.
* `Limits`: What a reader accepts.
* `decode`: Take one frame from the front of a buffer.
* `feed`: Append to a buffer and take all the frames it then holds.
-/

namespace Multidrop

namespace Frame

/-- What to do about a checksum that does not match. -/
inductive CrcPolicy where
  /-- Deliver the frame and mark it. -/
  | ignore
  /-- Refuse the frame. -/
  | enforce
  deriving DecidableEq

/-- What a reader accepts. -/
structure Limits where
  maxPayload : Nat := Frame.maxPayload
  crcPolicy : CrcPolicy := .ignore
  deriving DecidableEq

/-- The frame a reader sees in a source byte, a destination byte, a payload
    and a checksum, given what the checksum should have been. -/
def Received.ofParts (source destination : UInt8) (payload : List UInt8)
    (crc computed : UInt16) : Received where
  source := source &&& broadcast
  requestReply := source &&& replyFlag != 0
  destination := destination &&& broadcast
  payload := payload
  crc := crc
  crcOk := crc == computed

/-- Close a frame whose bytes are all there. `body` is what the checksum
    covers and `crc` what was received for it. -/
def close (limits : Limits) (source destination : UInt8) (payload body : List UInt8)
    (crc : UInt16) : Except Error Received :=
  let computed := Checksum.crc16 body
  if crc ≠ computed ∧ limits.crcPolicy = .enforce then .error (.crcMismatch computed crc)
  else .ok (Received.ofParts source destination payload crc computed)

/-- Take one frame from the front of a buffer, and give back what remains.
    `none` says that the frame is not complete yet. -/
def decode (limits : Limits) (buffer : List UInt8) :
    Except Error (Option Received) × List UInt8 :=
  match buffer with
  | m0 :: m1 :: source :: destination :: afterHeader =>
    match checkMagic m0 m1 with
    | .error e => (.error e, buffer)
    | .ok () =>
      match Varuint.read afterHeader with
      | (.error e, _) => (.error (.varuint e), buffer)
      | (.ok none, _) => (.ok none, buffer)
      | (.ok (some size), afterSize) =>
        if size.toNat > limits.maxPayload then
          (.error (.payloadTooLarge size.toNat limits.maxPayload), buffer)
        else
          match afterSize.drop size.toNat with
          | c0 :: c1 :: rest =>
            let payload := afterSize.take size.toNat
            let body := buffer.take (buffer.length - rest.length - crcSize)
            ((close limits source destination payload body (Byte.ofLe16 c0 c1)).map some, rest)
          | _ => (.ok none, buffer)
  | _ => (.ok none, buffer)

/-- One call of `decode`: what it said, and how many bytes it left. -/
structure Call where
  result : Except Error (Option Received)
  left : Nat

/-- Call `decode` until a call takes nothing. -/
def decodeAll (limits : Limits) (buffer : List UInt8) : List Call × List UInt8 :=
  let step := decode limits buffer
  let call : Call := ⟨step.1, step.2.length⟩
  if step.2.length < buffer.length then
    let more := decodeAll limits step.2
    (call :: more.1, more.2)
  else ([call], step.2)
termination_by buffer.length

/-- Append to a buffer and take all the frames it then holds. -/
def feed (limits : Limits) (buffer bytes : List UInt8) : List Call × List UInt8 :=
  decodeAll limits (buffer ++ bytes)

/-- Feed pieces one after another, noting the calls each of them leads to. -/
def feedAll (limits : Limits) (buffer : List UInt8) :
    List (List UInt8) → List (List Call) × List UInt8
  | [] => ([], buffer)
  | bytes :: pieces =>
    let step := feed limits buffer bytes
    let more := feedAll limits step.2 pieces
    (step.1 :: more.1, more.2)

end Frame

end Multidrop
