import Multidrop.Decimal.Notation
import Multidrop.Register.Value

/-!
# Register Values as Numbers

Every register value is a number of eight bytes: the whole numbers are, and
the short floating point numbers widen without loss. Listings write values as
such numbers, whatever their type.

## Main definitions

* `Value.datum`: A register value as a number.
* `Value.binary64?`: Its pattern, where it is a number at all.
-/

namespace Multidrop

namespace Register

namespace Value

/-- The whole number of a value that is not a floating point number. -/
def int? : Value → Option Int
  | .int8 v => some v.toInt
  | .int16 v => some v.toInt
  | .int32 v => some v.toInt
  | .float _ => none

/-- The pattern of a value as a number of eight bytes, none where it is not a
    number. -/
def binary64? (v : Value) : Option Nat :=
  match v with
  | .float bits => Decimal.binary64.convert (Decimal.binary32.decode bits.toNat)
  | .int8 n => some (Decimal.binary64.ofInt n.toInt)
  | .int16 n => some (Decimal.binary64.ofInt n.toInt)
  | .int32 n => some (Decimal.binary64.ofInt n.toInt)

/-- A value as a number. -/
def datum (v : Value) : Decimal.Datum :=
  match v.binary64? with
  | some bits => Decimal.binary64.decode bits
  | none => .nan

end Value

end Register

end Multidrop
