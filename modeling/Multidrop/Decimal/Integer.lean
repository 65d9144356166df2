/-!
# Reading Whole Numbers

A whole number is an optional sign and one or more digits; a minus sign is a
sign only for types that have negative values. Reading goes from left to
right and stops at the first fault, so a number that is already too large is
reported before a stray character behind it.

## Main definitions

* `Fault`: What can be wrong with the text of a whole number.
* `Range`: The values of a type.
* `Range.parse`: Read a number of a type.
-/

namespace Multidrop

namespace Decimal

/-- What can be wrong with the text of a whole number. -/
inductive Fault where
  | empty
  | invalidDigit
  | tooLarge
  | tooSmall
  deriving DecidableEq

/-- The wording of a fault. -/
def Fault.message : Fault → String
  | .empty => "cannot parse integer from empty string"
  | .invalidDigit => "invalid digit found in string"
  | .tooLarge => "number too large to fit in target type"
  | .tooSmall => "number too small to fit in target type"

/-- The values of a type of whole numbers. -/
structure Range where
  low : Int
  high : Int

/-- Words of eight bits without a sign. -/
def Range.unsigned8 : Range := ⟨0, 0xff⟩

/-- Words of sixteen bits without a sign. -/
def Range.unsigned16 : Range := ⟨0, 0xffff⟩

/-- Words of thirty-two bits without a sign. -/
def Range.unsigned32 : Range := ⟨0, 0xffffffff⟩

/-- Words of sixty-four bits without a sign. -/
def Range.unsigned64 : Range := ⟨0, 0xffffffffffffffff⟩

/-- Words of `bits` bits with a sign. -/
def Range.signed (bits : Nat) : Range := ⟨-Nat.pow 2 (bits - 1), Nat.pow 2 (bits - 1) - 1⟩

/-- The value of a digit up to sixteen. -/
def digitValue? (radix : Nat) (c : Char) : Option Nat :=
  let value :=
    if '0' ≤ c ∧ c ≤ '9' then some (c.toNat - '0'.toNat)
    else if 'a' ≤ c ∧ c ≤ 'f' then some (c.toNat - 'a'.toNat + 10)
    else if 'A' ≤ c ∧ c ≤ 'F' then some (c.toNat - 'A'.toNat + 10)
    else none
  value.filter (· < radix)

/-- Read digits onto a number, in the direction of its sign. -/
def Range.readDigits (r : Range) (radix : Nat) (negative : Bool) (value : Int) :
    List Char → Except Fault Int
  | [] => .ok value
  | c :: cs =>
    match digitValue? radix c with
    | none => .error .invalidDigit
    | some d =>
      let next := if negative then value * radix - d else value * radix + d
      if next < r.low then .error .tooSmall
      else if r.high < next then .error .tooLarge
      else r.readDigits radix negative next cs

/-- Read a number of a type. -/
def Range.parse (r : Range) (radix : Nat) (text : List Char) : Except Fault Int :=
  match text with
  | [] => .error .empty
  | ['+'] => .error .invalidDigit
  | ['-'] => .error .invalidDigit
  | '+' :: digits => r.readDigits radix false 0 digits
  | '-' :: digits =>
    if r.low < 0 then r.readDigits radix true 0 digits else .error .invalidDigit
  | digits => r.readDigits radix false 0 digits

end Decimal

end Multidrop
