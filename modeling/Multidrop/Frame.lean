import Multidrop.Byte.LittleEndian
import Multidrop.Checksum
import Multidrop.Text.Hex
import Multidrop.Varuint

/-!
# Frames

What travels on the bus: two magic bytes, the address of the sender with a
flag that asks for a reply, the address of the receiver, the length of the
payload, the payload, and a checksum over everything before it.

Addresses have seven bits; the top bit of the source byte is the flag. A
payload holds at most 255 bytes, and its length is a variable-length number.

## Main definitions

* `Frame`: What a sender decides.
* `Received`: A frame with the checksum it came with.
* `Error`: Why bytes are not a frame, or a frame not fit to be sent.
* `layout`: The bytes of a frame as they travel.
* `encode`: Those bytes, where the frame is fit to be sent.
* `appendTo`: The same, written behind what a buffer holds.
-/

namespace Multidrop

/-- What a sender decides about a frame. -/
structure Frame where
  source : UInt8
  destination : UInt8
  payload : List UInt8
  /-- Whether the receiver is asked to answer. -/
  requestReply : Bool := false
  deriving DecidableEq

namespace Frame

/-- The two bytes every frame starts with. -/
def magic : UInt16 := 0xab54

/-- The bytes before the length: magic, source and destination. -/
def headerSize : Nat := 4

/-- The bytes of the checksum. -/
def crcSize : Nat := 2

/-- The longest payload a frame may be sent with. -/
def maxPayload : Nat := 255

/-- The bit of the source byte that asks for a reply. -/
def replyFlag : UInt8 := 0x80

/-- The bits of an address, and the address every device listens to. -/
def broadcast : UInt8 := 0x7f

/-- Why bytes are not a frame, or a frame not fit to be sent. -/
inductive Error where
  /-- The first two bytes are not the magic. -/
  | invalidMagic (found : UInt16)
  /-- A payload longer than allowed. -/
  | payloadTooLarge (size max : Nat)
  /-- An address above seven bits. -/
  | invalidAddress (address : UInt8)
  /-- The checksum received is not the one of the bytes before it. -/
  | crcMismatch (computed received : UInt16)
  /-- The length is not a number. -/
  | varuint (cause : Varuint.Error)
  deriving DecidableEq

/-- The wording of an error. -/
def Error.message : Error → String
  | .invalidMagic found =>
      s!"invalid frame magic 0x{Text.Hex.padded 4 found.toNat} " ++
        s!"(expected 0x{Text.Hex.padded 4 magic.toNat})"
  | .payloadTooLarge size max => s!"payload too large ({size} bytes, max {max})"
  | .invalidAddress address =>
      s!"address 0x{Text.Hex.padded 2 address.toNat} does not fit in 7 bits"
  | .crcMismatch computed received =>
      s!"crc mismatch (computed 0x{Text.Hex.padded 4 computed.toNat}, " ++
        s!"received 0x{Text.Hex.padded 4 received.toNat})"
  | .varuint cause => s!"varuint error: {cause.message}"

/-- The source address with the flag that asks for a reply. -/
def sourceByte (f : Frame) : UInt8 :=
  if f.requestReply then f.source ||| replyFlag else f.source

/-- How many bytes a frame with this payload takes. -/
def wireSize (payload : List UInt8) : Nat :=
  headerSize + Varuint.size payload.length.toUInt32 + payload.length + crcSize

/-- The bytes the checksum of a frame covers. -/
def covered (sourceByte destination : UInt8) (payload : List UInt8) : List UInt8 :=
  Byte.le16 magic ++ [sourceByte, destination] ++
    Varuint.encode payload.length.toUInt32 ++ payload

/-- The bytes of a frame as they travel. -/
def layout (sourceByte destination : UInt8) (payload : List UInt8) : List UInt8 :=
  let body := covered sourceByte destination payload
  body ++ Byte.le16 (Checksum.crc16 body)

/-- The bytes of a frame with a given source byte. The payload is looked at
    before the destination. -/
def encodeRaw (sourceByte destination : UInt8) (payload : List UInt8) :
    Except Error (List UInt8) :=
  if payload.length > maxPayload then .error (.payloadTooLarge payload.length maxPayload)
  else if destination > broadcast then .error (.invalidAddress destination)
  else .ok (layout sourceByte destination payload)

/-- The bytes of a frame. A wide source address is the first thing refused,
    since its top bit would pass for the flag. -/
def encode (f : Frame) : Except Error (List UInt8) :=
  if f.source > broadcast then .error (.invalidAddress f.source)
  else encodeRaw f.sourceByte f.destination f.payload

/-- Put a frame with a given source byte behind the bytes of a buffer, one part
    after the other. The checksum covers what was put there so far. -/
def appendRaw (sourceByte destination : UInt8) (payload buffer : List UInt8) :
    List UInt8 × Except Error Unit :=
  if payload.length > maxPayload then
    (buffer, .error (.payloadTooLarge payload.length maxPayload))
  else if destination > broadcast then (buffer, .error (.invalidAddress destination))
  else
    let start := buffer.length
    let buffer := buffer ++ Byte.le16 magic
    let buffer := buffer ++ [sourceByte, destination]
    let buffer := buffer ++ Varuint.encode payload.length.toUInt32
    let buffer := buffer ++ payload
    (buffer ++ Byte.le16 (Checksum.crc16 (buffer.drop start)), .ok ())

/-- Put a frame behind the bytes of a buffer. -/
def appendTo (f : Frame) (buffer : List UInt8) : List UInt8 × Except Error Unit :=
  if f.source > broadcast then (buffer, .error (.invalidAddress f.source))
  else appendRaw f.sourceByte f.destination f.payload buffer

/-- A frame with the checksum it came with. -/
structure Received extends Frame where
  crc : UInt16
  /-- Whether the checksum is the one of the bytes before it. -/
  crcOk : Bool
  deriving DecidableEq

/-- Refuse two bytes that are not the magic. -/
def checkMagic (b0 b1 : UInt8) : Except Error Unit :=
  if Byte.ofLe16 b0 b1 = magic then .ok () else .error (.invalidMagic (Byte.ofLe16 b0 b1))

end Frame

end Multidrop
