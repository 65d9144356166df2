/-!
# Hexadecimal Text

Numbers in messages and listings are written in lower case hexadecimal, with
leading zeros up to a stated width.

## Main definitions

* `digit`: The sign of one digit.
* `padded`: A number with at least a given count of digits.
* `bytes`: Two digits for every byte.
-/

namespace Multidrop

namespace Text

namespace Hex

/-- The sign of a digit below sixteen. -/
def digit (n : Nat) : Char :=
  if n < 10 then Char.ofNat ('0'.toNat + n) else Char.ofNat ('a'.toNat + (n - 10))

/-- The digits of a number, the most significant first and none before it. -/
def digits (n : Nat) : List Char :=
  if n < 16 then [digit n] else digits (n / 16) ++ [digit (n % 16)]
termination_by n

/-- A number with leading zeros up to `width` digits. -/
def padded (width n : Nat) : String :=
  let ds := digits n
  String.ofList (List.replicate (width - ds.length) '0' ++ ds)

/-- Two digits for every byte. -/
def bytes (bs : List UInt8) : String :=
  String.ofList (bs.flatMap fun b => [digit (b.toNat / 16), digit (b.toNat % 16)])

end Hex

end Text

end Multidrop
