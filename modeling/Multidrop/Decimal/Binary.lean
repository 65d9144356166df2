/-!
# Binary Floating Point Formats

A bit pattern of an interchange format stands for a signed multiple of a
power of two, for an infinity, or for no number. The arithmetic here is exact
and on natural numbers: patterns are taken apart, and a fraction is rounded
to the pattern nearest to it.

## Main definitions

* `Format`: A format, by the width of its two fields.
* `Datum`: What a pattern stands for.
* `Format.decode`: Take a pattern apart.
* `Format.nearest`: The pattern nearest to a fraction, ties to even.
* `Format.ofInt`, `Format.convert`: Whole numbers, and data of another
  format.
-/

namespace Multidrop

namespace Decimal

/-- A binary interchange format. -/
structure Format where
  /-- The bits of the significand, the one not stored included. -/
  precision : Nat
  /-- The bits of the exponent field. -/
  exponentWidth : Nat

/-- The format of four bytes. -/
def binary32 : Format := ⟨24, 8⟩

/-- The format of eight bytes. -/
def binary64 : Format := ⟨53, 11⟩

/-- What a bit pattern stands for. -/
inductive Datum where
  | nan
  | infinite (negative : Bool)
  /-- The number `significand * 2 ^ exponent`, or its negation. -/
  | finite (negative : Bool) (significand : Nat) (exponent : Int)
  deriving DecidableEq

namespace Format

/-- How far the significand field reaches. -/
def fieldSize (f : Format) : Nat :=
  Nat.pow 2 (f.precision - 1)

/-- The exponent field of the infinities. -/
def topExponent (f : Format) : Nat :=
  Nat.pow 2 f.exponentWidth - 1

/-- The exponent of the last place of the smallest numbers. -/
def leastExponent (f : Format) : Int :=
  3 - Nat.pow 2 (f.exponentWidth - 1) - (f.precision : Int)

/-- The pattern of the positive infinity. -/
def infinity (f : Format) : Nat :=
  f.topExponent * f.fieldSize

/-- The bit of the sign. -/
def signBit (f : Format) (negative : Bool) : Nat :=
  if negative then Nat.pow 2 (f.exponentWidth + f.precision - 1) else 0

/-- Take a pattern apart. -/
def decode (f : Format) (bits : Nat) : Datum :=
  let field := bits % f.fieldSize
  let exponent := bits / f.fieldSize % Nat.pow 2 f.exponentWidth
  let negative := bits / f.fieldSize / Nat.pow 2 f.exponentWidth % 2 == 1
  if exponent = f.topExponent then if field = 0 then .infinite negative else .nan
  else if exponent = 0 then .finite negative field f.leastExponent
  else .finite negative (f.fieldSize + field) (f.leastExponent + (exponent - 1 : Nat))

/-- A fraction in units of a power of two, as a fraction. -/
def inUnits (numerator denominator : Nat) (exponent : Int) : Nat × Nat :=
  if 0 ≤ exponent then (numerator, denominator * Nat.pow 2 exponent.toNat)
  else (numerator * Nat.pow 2 (-exponent).toNat, denominator)

/-- The whole number nearest to a fraction, a half going to the even one. -/
def roundHalfEven (numerator denominator : Nat) : Nat :=
  let whole := numerator / denominator
  let twice := 2 * (numerator % denominator)
  if twice < denominator then whole
  else if denominator < twice then whole + 1
  else whole + whole % 2

/-- The exponent of the last place a format keeps of a positive fraction. -/
def lastPlace (f : Format) (numerator denominator : Nat) : Int :=
  let guess : Int := (numerator.log2 : Int) - denominator.log2 - (f.precision - 1 : Nat)
  let scaled := inUnits numerator denominator guess
  let exponent := if scaled.1 / scaled.2 < f.fieldSize then guess - 1 else guess
  max f.leastExponent exponent

/-- The pattern nearest to a fraction, a tie going to the even significand.
    A significand rounded up to the next power of two carries into the
    exponent field by itself, and what is too large becomes infinite. -/
def nearest (f : Format) (negative : Bool) (numerator denominator : Nat) : Nat :=
  if numerator = 0 then f.signBit negative
  else
    let exponent := f.lastPlace numerator denominator
    let scaled := inUnits numerator denominator exponent
    let significand := roundHalfEven scaled.1 scaled.2
    let magnitude := (exponent - f.leastExponent).toNat * f.fieldSize + significand
    f.signBit negative + min magnitude f.infinity

/-- The pattern nearest to a whole number. -/
def ofInt (f : Format) (n : Int) : Nat :=
  f.nearest (n < 0) n.natAbs 1

/-- The pattern nearest to a datum, where it stands for a number. -/
def convert (f : Format) : Datum → Option Nat
  | .nan => none
  | .infinite negative => some (f.signBit negative + f.infinity)
  | .finite negative significand exponent =>
    let scaled := inUnits significand 1 (-exponent)
    some (f.nearest negative scaled.1 scaled.2)

end Format

end Decimal

end Multidrop
