/-!
# Sub-frames

A payload is a run of sub-frames, each opened by an identifier. The register
identifiers between 0x10 and 0x27 come in groups of four: the low two bits
name a value type and the rest of the identifier what is asked or answered.

## Main definitions

* `writeSingle` … `replyMultiple`: The bases of the six typed groups.
* `writeError`, `readError`: A device's refusals.
* `toDevice`, `toHost`: Stream data in either direction.
* `base`: An identifier without its type bits.
* `name`: What an identifier is called in listings.
-/

namespace Multidrop

namespace Subframe

/-- Write one register. -/
def writeSingle : UInt32 := 0x10

/-- Write consecutive registers. -/
def writeMultiple : UInt32 := 0x14

/-- Read one register. -/
def readSingle : UInt32 := 0x18

/-- Read consecutive registers. -/
def readMultiple : UInt32 := 0x1c

/-- The value of one register. -/
def replySingle : UInt32 := 0x20

/-- The values of consecutive registers. -/
def replyMultiple : UInt32 := 0x24

/-- A write that the device refused. -/
def writeError : UInt32 := 0x28

/-- A read that the device refused. -/
def readError : UInt32 := 0x29

/-- Stream data from the host; without data, a poll. -/
def toDevice : UInt32 := 0x40

/-- Stream data from a device. -/
def toHost : UInt32 := 0x41

/-- The fewest bytes a sub-frame takes. -/
def minPayload : Nat := 3

/-- The bits of an identifier that name a value type. -/
def typeMask : UInt32 := 0x03

/-- An identifier without its type bits. -/
def base (id : UInt32) : UInt32 :=
  id &&& ~~~typeMask

/-- What an identifier is called in listings. -/
def name (id : UInt32) : String :=
  if base id = writeSingle then "WRITE_SINGLE"
  else if base id = writeMultiple then "WRITE_MULTIPLE"
  else if base id = readSingle then "READ_SINGLE"
  else if base id = readMultiple then "READ_MULTIPLE"
  else if base id = replySingle then "REPLY_SINGLE"
  else if base id = replyMultiple then "REPLY_MULTIPLE"
  else if id = writeError then "WRITE_ERROR"
  else if id = readError then "READ_ERROR"
  else if id = toDevice then "STREAM_CLIENT_TO_SERVER"
  else if id = toHost then "STREAM_SERVER_TO_CLIENT"
  else "UNKNOWN"

end Subframe

end Multidrop
