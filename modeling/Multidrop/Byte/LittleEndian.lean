/-!
# Little-Endian Words

Sixteen and thirty-two bit words as bytes, the least significant byte first.
Frames carry their checksum this way and register values their contents.

## Main definitions

* `le16`, `le32`: The bytes of a word.
* `ofLe16`, `ofLe32`: The word of two or four bytes.
-/

namespace Multidrop

namespace Byte

/-- The two bytes of a word, the low one first. -/
def le16 (w : UInt16) : List UInt8 :=
  [w.toUInt8, (w >>> 8).toUInt8]

/-- The word whose low byte is `b0` and whose high byte is `b1`. -/
def ofLe16 (b0 b1 : UInt8) : UInt16 :=
  b0.toUInt16 ||| (b1.toUInt16 <<< 8)

/-- The four bytes of a word, the lowest one first. -/
def le32 (w : UInt32) : List UInt8 :=
  [w.toUInt8, (w >>> 8).toUInt8, (w >>> 16).toUInt8, (w >>> 24).toUInt8]

/-- The word of four bytes, the lowest one first. -/
def ofLe32 (b0 b1 b2 b3 : UInt8) : UInt32 :=
  b0.toUInt32 ||| (b1.toUInt32 <<< 8) ||| (b2.toUInt32 <<< 16) ||| (b3.toUInt32 <<< 24)

@[simp]
theorem length_le16 (w : UInt16) : (le16 w).length = 2 := rfl

end Byte

end Multidrop
