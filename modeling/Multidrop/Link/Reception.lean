import Multidrop.Bus

/-!
# Receiving a Frame

Whoever holds the lock can take one frame from the wire. A reception asks for
as many bytes as the part of the frame at hand still lacks: the header, then
the length byte by byte, then the payload and the checksum. So it never takes
a byte of the next frame.

Some headers cannot be trusted: those without the magic, and those that
announce more than is accepted. What arrives behind such a header is noise as
well, so whatever is there at that moment is thrown away, within a limit, and
the reception ends with the error `Link.Error.resynchronized`. A length that
is no number ends it with the bytes read so far and nothing else.

A frame from someone else than expected, or one too short to hold a
sub-frame, is taken and counted but not delivered.

## Main definitions

* `Reception`: How far a reception has come.
* `Reception.step`: One turn of a reception.
* `discard`: Throw away what has arrived.
-/

namespace Multidrop

/-- How far a reception has come. -/
inductive Reception where
  /-- Part of the header. -/
  | header (got : List UInt8)
  /-- The header, and part of the length. -/
  | length (got : List UInt8) (decoder : Varuint.Decoder)
  /-- The header, the length and part of the rest, of which some bytes are
      still missing. -/
  | body (got : List UInt8) (missing : Nat)
  deriving DecidableEq

namespace Reception

/-- A reception that has not taken anything. -/
def start : Reception := .header []

/-- What a reception leads to: a frame, no usable frame, or an error. -/
abbrev Result := Except Link.Error (Option Frame.Received)

/-- How many bytes the part at hand still lacks. -/
def wants : Reception → Nat
  | .header got => Frame.headerSize - got.length
  | .length .. => 1
  | .body _ missing => missing

/-- Read what has arrived, without waiting. Nothing there, the end of the
    stream, and a call that was interrupted or would have waited all give no
    bytes. -/
def readArrived (now : Duration) (want : Nat) (wire : Wire) :
    Except Transport.Fault (List UInt8) × Wire :=
  match wire.read now want with
  | (.waiting, wire) => (.ok [], wire)
  | (.ready bytes, wire) => (.ok bytes, wire)
  | (.failed cause, wire) =>
    if cause.kind = .wouldBlock ∨ cause.kind = .interrupted then (.ok [], wire)
    else (.error cause, wire)

/-- The most bytes thrown away at once. -/
def discardChunk : Nat := 256

/-- Throw away what has arrived, at most `window` bytes, and count it. -/
def discard (now : Duration) (window : Nat) (wire : Wire) :
    Except Transport.Fault Nat × Wire :=
  if _h : window = 0 then (.ok 0, wire)
  else
    match readArrived now (min window discardChunk) wire with
    | (.error cause, wire) => (.error cause, wire)
    | (.ok [], wire) => (.ok 0, wire)
    | (.ok (_ :: more), wire) =>
      let rest := discard now (window - (more.length + 1)) wire
      (rest.1.map (· + (more.length + 1)), rest.2)
termination_by window
decreasing_by omega

/-- Give up on a header. A fault while throwing away what has arrived takes
    precedence, and then nothing is counted. -/
def resynchronize (reason : Link.ResyncReason) (bus : Bus) : Link.Error × Bus :=
  match discard bus.now bus.link.config.resyncWindow bus.wire with
  | (.error cause, wire) => (.transport (.io cause), { bus with wire })
  | (.ok discarded, wire) =>
    (.resynchronized reason discarded,
      { bus with wire, link := bus.link.resynchronized discarded })

/-- Give up on a header, as a turn. -/
def giveUp (reason : Link.ResyncReason) (bus : Bus) : Turn Reception Result × Bus :=
  let given := resynchronize reason bus
  (.over (.error given.1), given.2)

/-- Sort a frame received whole: it is delivered, or dropped for its source
    or its size. -/
def sort (onlyFrom : Option UInt8) (f : Frame.Received) (link : Link) :
    Option Frame.Received × Link :=
  let link := link.frameReceived
  let link := if f.crcOk then link else link.crcMismatch
  if onlyFrom.any (· ≠ f.source) then (none, link.strayFrame)
  else if f.payload.length < Subframe.minPayload then (none, link.shortFrame)
  else (some f, link)

/-- Close a frame whose bytes are all there. -/
def close (onlyFrom : Option UInt8) (bytes : List UInt8) (bus : Bus) : Result × Bus :=
  match (Frame.decode bus.link.config.limits bytes).1 with
  | .error e =>
    let link :=
      match e with
      | .crcMismatch .. => bus.link.crcMismatch
      | _ => bus.link
    (.error (.frame e), { bus with link })
  | .ok none => (.ok none, bus)
  | .ok (some f) =>
    let sorted := sort onlyFrom f bus.link
    (.ok sorted.1, { bus with link := sorted.2 })

/-- Look at a header whose bytes are all there. -/
def openHeader (got : List UInt8) (bus : Bus) : Turn Reception Result × Bus :=
  match got with
  | m0 :: m1 :: _ =>
    match Frame.checkMagic m0 m1 with
    | .error _ => giveUp (.badMagic (Byte.ofLe16 m0 m1)) bus
    | .ok () => (.again (.length got {}), bus)
  | _ => (.again (.header got), bus)

/-- Look at the next byte of a length. -/
def openLength (got : List UInt8) (step : Except Varuint.Error (Option UInt32) × Varuint.Decoder)
    (bus : Bus) : Turn Reception Result × Bus :=
  match step with
  | (.error e, _) => (.over (.error (.frame (.varuint e))), bus)
  | (.ok none, decoder) => (.again (.length got decoder), bus)
  | (.ok (some size), _) =>
    if size.toNat > bus.link.config.limits.maxPayload then
      giveUp (.oversizedLength size.toNat) bus
    else (.again (.body got (size.toNat + Frame.crcSize)), bus)

/-- Go on with bytes that were read, at least one. -/
def proceed (onlyFrom : Option UInt8) (byte : UInt8) (more : List UInt8) (r : Reception)
    (bus : Bus) : Turn Reception Result × Bus :=
  match r with
  | .header got =>
    let got := got ++ byte :: more
    if got.length < Frame.headerSize then (.again (.header got), bus) else openHeader got bus
  | .length got decoder => openLength (got ++ [byte]) (decoder.push byte) bus
  | .body got missing =>
    let got := got ++ byte :: more
    let missing := missing - (more.length + 1)
    if missing = 0 then
      let closed := close onlyFrom got bus
      (.over closed.1, closed.2)
    else (.again (.body got missing), bus)

/-- One turn of a reception. An interrupted call is made again, and the end
    of the stream is an error. -/
def step (onlyFrom : Option UInt8) (r : Reception) (bus : Bus) :
    Turn Reception Result × Bus :=
  match bus.wire.read bus.now r.wants with
  | (.waiting, wire) => (.waiting, { bus with wire })
  | (.failed cause, wire) =>
    if cause.kind = .interrupted then (.again r, { bus with wire })
    else (.over (.error (.transport (.io cause))), { bus with wire })
  | (.ready [], wire) => (.over (.error .closed), { bus with wire })
  | (.ready (byte :: more), wire) => r.proceed onlyFrom byte more { bus with wire }

end Reception

end Multidrop
