/-!
# Blanks

What counts as blank at the ends of a text. In text that people type, these
are the white space characters of every script. In the bytes of a
configuration line, these are the five ASCII ones only, and the vertical tab
is not among them.

## Main definitions

* `isBlank`, `trim`: Blank characters, and a text without those at its ends.
* `isBlankByte`, `trimBytes`: The same for bytes.
-/

namespace Multidrop

namespace Text

/-- Whether a character is white space. -/
def isBlank (c : Char) : Bool :=
  let n := c.toNat
  (9 ≤ n && n ≤ 13) || n == 0x20 || n == 0x85 || n == 0xa0 || n == 0x1680 ||
    (0x2000 ≤ n && n ≤ 0x200a) || n == 0x2028 || n == 0x2029 || n == 0x202f ||
    n == 0x205f || n == 0x3000

/-- A list without the elements at its ends that satisfy a test. -/
def trimList {α : Type} (p : α → Bool) (xs : List α) : List α :=
  ((xs.dropWhile p).reverse.dropWhile p).reverse

/-- A text without blanks at its ends. -/
def trim (s : String) : String :=
  String.ofList (trimList isBlank s.toList)

/-- Whether a byte is a space, a tab, a line feed, a form feed or a carriage
    return. -/
def isBlankByte (b : UInt8) : Bool :=
  b == 0x20 || b == 0x09 || b == 0x0a || b == 0x0c || b == 0x0d

/-- Bytes without blanks at their ends. -/
def trimBytes (bs : List UInt8) : List UInt8 :=
  trimList isBlankByte bs

end Text

end Multidrop
