/-!
# Frame Checksum

The sixteen bit cyclic redundancy check that closes every frame: polynomial
x^16 + x^12 + x^5 + 1, register preset to all ones, most significant bit
first, nothing reflected and nothing inverted at the end.

`crc16` takes a byte at a time from a table of 256 words, each entry being
what eight shifts make of that byte in the upper half of the register.
`serial` is the same check one bit at a time, as a shift register computes
it.

## Main definitions

* `shift`: One step of the shift register.
* `table`: What eight steps make of each byte.
* `crc16`: The checksum, a byte at a time.
* `serial`: The checksum, a bit at a time.
-/

namespace Multidrop

namespace Checksum

/-- The polynomial below its leading term. -/
def polynomial : UInt16 := 0x1021

/-- The register before the first byte. -/
def preset : UInt16 := 0xffff

/-- Shift the register by one place, dividing by the polynomial. -/
def shift (register : UInt16) : UInt16 :=
  if register &&& 0x8000 = 0 then register <<< 1 else (register <<< 1) ^^^ polynomial

/-- Shift the register by `n` places. -/
def shifts : Nat → UInt16 → UInt16
  | 0, register => register
  | n + 1, register => shifts n (shift register)

/-- For each byte, what eight shifts make of it in the upper half of the
    register. -/
def table : Array UInt16 :=
  Array.ofFn fun i : Fin 256 => shifts 8 (i.val.toUInt16 <<< 8)

/-- The table's word for a byte. -/
def entry (byte : UInt8) : UInt16 :=
  table.getD byte.toNat 0

/-- Take one byte into the register. -/
def update (register : UInt16) (byte : UInt8) : UInt16 :=
  (register <<< 8) ^^^ entry ((register >>> 8).toUInt8 ^^^ byte)

/-- The checksum of some bytes. -/
def crc16 (bytes : List UInt8) : UInt16 :=
  bytes.foldl update preset

/-- Take one byte into the register bit by bit, the top bit first. -/
def serialUpdate (register : UInt16) (byte : UInt8) : UInt16 :=
  shifts 8 (register ^^^ (byte.toUInt16 <<< 8))

/-- The checksum of some bytes as a shift register computes it. -/
def serial (bytes : List UInt8) : UInt16 :=
  bytes.foldl serialUpdate preset

end Checksum

end Multidrop
