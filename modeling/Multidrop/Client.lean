import Multidrop.Link
import Multidrop.Subframe.Stream

/-!
# Clients

A client talks to one device over a shared link. It carries a byte stream,
tunneled through one channel of the device, and register requests.

Stream bytes to the device are kept until they are drained, and travel in
frames of limited size. Stream bytes from the device come only when it is
polled, and are kept until they are read.

## Main definitions

* `Client.Config`: The channel, the times and the size of a chunk.
* `Client`: The device, the configuration and the two buffers.
* `Client.Failure`: Why there is no client.
* `Client.create`: A client whose frames can be sent.
* `Client.queueWrites`: Queue the buffered bytes as frames.

## Theorems

* `Client.Config.chunkSize_pos`: A chunk has at least one byte.
-/

namespace Multidrop

namespace Client

/-- The channel, the times and the size of a chunk. -/
structure Config where
  channel : UInt32 := 1
  /-- How long to pause between polls. -/
  pollRate : Duration := .ofMillis 100
  /-- How long to wait for the first frame of an answer. -/
  timeout : Duration := .ofMillis 50
  /-- How long to wait for each further one. -/
  followup : Duration := .ofMicros 100
  /-- The most stream bytes in a frame. -/
  maxChunk : UInt64 := 100
  deriving DecidableEq

/-- The most stream bytes in a frame, at least one. -/
def Config.chunkSize (c : Config) : UInt64 :=
  if c.maxChunk = 0 then 1 else c.maxChunk

/-- A chunk has at least one byte. -/
theorem Config.chunkSize_pos (c : Config) : 0 < c.chunkSize.toNat := by
  unfold chunkSize
  split
  · decide
  · rename_i h
    exact Nat.pos_of_ne_zero fun h0 => h (UInt64.toNat_inj.mp h0)

/-- The largest number that fits a length of a sub-frame. -/
def Config.announced (c : Config) : UInt32 :=
  if c.chunkSize ≤ 0xffffffff then c.chunkSize.toUInt32 else 0xffffffff

/-- The size of a sub-frame with a full chunk. It is a checked sum of machine
    words: there is none where it does not fit in 64 bits. -/
def Config.maxStreamPayload (c : Config) : Option Nat :=
  let size := Stream.headerSize Subframe.toDevice c.channel c.announced + c.chunkSize.toNat
  if size < UInt64.size then some size else none

/-- Why there is no client. -/
inductive Failure where
  /-- The device has no address, or a full chunk fits in no frame. -/
  | refused (cause : Link.Error)
  /-- The size of a full chunk does not fit in 64 bits. Whoever asks for such a
      client is not answered, but stopped in the middle of the sum. -/
  | overflow
  deriving DecidableEq

end Client

/-- A client of a device. -/
structure Client where
  /-- The address of the device. -/
  destination : UInt8 := 0
  config : Client.Config := {}
  /-- Stream bytes not queued yet. -/
  writeBuffer : List UInt8 := []
  /-- Stream bytes received and not read yet. -/
  readBuffer : List UInt8 := []
  deriving DecidableEq

namespace Client

/-- A client with nothing buffered. The address of the device has to fit in
    seven bits, and a full chunk in a frame. -/
def create (destination : UInt8) (config : Config) : Except Failure Client :=
  if destination > Frame.broadcast then
    .error (.refused (.frame (.invalidAddress destination)))
  else
    match config.maxStreamPayload with
    | none => .error .overflow
    | some size =>
      if size > Frame.maxPayload then
        .error (.refused (.frame (.payloadTooLarge size Frame.maxPayload)))
      else .ok { destination, config }

/-- Buffer stream bytes for the device. -/
def write (bytes : List UInt8) (c : Client) : Client :=
  { c with writeBuffer := c.writeBuffer ++ bytes }

/-- Keep stream bytes from the device. -/
def receive (bytes : List UInt8) (c : Client) : Client :=
  { c with readBuffer := c.readBuffer ++ bytes }

/-- A frame to the device over a link. -/
def frame (link : Link) (payload : List UInt8) (requestReply : Bool) (c : Client) : Frame where
  source := link.config.source
  destination := c.destination
  payload := payload
  requestReply := requestReply

/-- A frame with stream bytes. -/
def dataFrame (link : Link) (bytes : List UInt8) (c : Client) : Frame :=
  c.frame link (Stream.payload Subframe.toDevice c.config.channel bytes) false

/-- A frame that asks for stream bytes. -/
def pollFrame (link : Link) (c : Client) : Frame :=
  c.frame link (Stream.payload Subframe.toDevice c.config.channel []) true

/-- Queue the buffered bytes, chunk by chunk. A chunk leaves the buffer once
    its frame is queued, so a frame that is refused leaves its bytes and
    those behind them. -/
def queueWrites (c : Client) (link : Link) : Except Frame.Error Unit × Client × Link :=
  if _h : c.writeBuffer = [] then (.ok (), c, link)
  else
    let size := c.config.chunkSize.toNat
    match link.queueFrame (c.dataFrame link (c.writeBuffer.take size)) with
    | .error e => (.error e, c, link)
    | .ok link => queueWrites { c with writeBuffer := c.writeBuffer.drop size } link
termination_by c.writeBuffer.length
decreasing_by
  have hlength : c.writeBuffer.length ≠ 0 := fun h0 => _h (List.eq_nil_of_length_eq_zero h0)
  have hsize := c.config.chunkSize_pos
  simp only [List.length_drop]
  omega

end Client

end Multidrop
