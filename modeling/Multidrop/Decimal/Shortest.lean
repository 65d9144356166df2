import Multidrop.Decimal.Binary

/-!
# Shortest Decimals

The fewest decimal digits that read back as the same floating point number,
and of those the nearest to it. A number may lie exactly half way between two
of them; which one it is then depends on who writes it.

The numbers that read back as a given one form an interval around it: half a
unit of the last place to either side, only a quarter below a power of two,
with the ends included where the significand is even. Of the decimals with a
given number of places, if any lies in the interval, one of the two
neighbours of the number itself does; so it is enough to look at these two,
for one digit, two digits, and so on. Seventeen digits always suffice for
eight bytes.

## Main definitions

* `Scientific`: A whole number times a power of ten.
* `Tie`: What half way between two decimals goes to.
* `Interval`: A number and the numbers that read back as it.
* `shortest`: The shortest decimal in an interval.
-/

namespace Multidrop

namespace Decimal

/-- The number `digits * 10 ^ exponent`. -/
structure Scientific where
  digits : Nat
  exponent : Int
  deriving DecidableEq

/-- Drop trailing zeros, at most `count` of them. -/
def Scientific.trim : Nat → Scientific → Scientific
  | 0, s => s
  | count + 1, s =>
    if s.digits ≠ 0 ∧ s.digits % 10 = 0 then trim count ⟨s.digits / 10, s.exponent + 1⟩
    else s

/-- How many decimal digits a number has. -/
def digitCount (n : Nat) : Nat :=
  if n < 10 then 1 else digitCount (n / 10) + 1
termination_by n

/-- What a number goes to that is as near to a whole number as to the next. -/
inductive Tie where
  /-- The larger one. -/
  | up
  /-- The even one. -/
  | toEven
  deriving DecidableEq

/-- Whether half way between a whole number and the next goes to the next. -/
def Tie.goesUp (t : Tie) (below : Nat) : Bool :=
  match t with
  | .up => true
  | .toEven => below % 2 = 1

/-- A number and the numbers that read back as it, over one denominator. -/
structure Interval where
  low : Nat
  value : Nat
  high : Nat
  denominator : Nat
  /-- Whether the ends read back as the number, too. -/
  closed : Bool

/-- The interval of a positive number of a format, in quarters of its last
    place. -/
def Interval.ofFinite (f : Format) (significand : Nat) (exponent : Int) : Interval :=
  let narrow := significand = f.fieldSize ∧ f.leastExponent < exponent
  let scale (quarters : Nat) : Nat × Nat := Format.inUnits quarters 1 (2 - exponent)
  { low := (scale (4 * significand - if narrow then 1 else 2)).1
    value := (scale (4 * significand)).1
    high := (scale (4 * significand + 2)).1
    denominator := (scale 0).2
    closed := significand % 2 = 0 }

/-- The power of ten just above a positive fraction: the least `k` with the
    fraction below `10 ^ k`. -/
def magnitude (numerator denominator : Nat) : Int :=
  if denominator ≤ numerator then digitCount (numerator / denominator)
  else 1 - (digitCount ((denominator - 1) / numerator) : Int)

/-- A fraction in units of a power of ten, as a fraction. -/
def inTens (numerator denominator : Nat) (exponent : Int) : Nat × Nat :=
  if 0 ≤ exponent then (numerator, denominator * Nat.pow 10 exponent.toNat)
  else (numerator * Nat.pow 10 (-exponent).toNat, denominator)

/-- The decimal with a given last place that reads back as the number and is
    nearest to it, if one reads back at all. -/
def atPlace (t : Tie) (i : Interval) (exponent : Int) : Option Scientific :=
  let (low, denominator) := inTens i.low i.denominator exponent
  let (value, _) := inTens i.value i.denominator exponent
  let (high, _) := inTens i.high i.denominator exponent
  let inside (d : Nat) : Bool :=
    if i.closed then low ≤ d * denominator && d * denominator ≤ high
    else low < d * denominator && d * denominator < high
  let below := value / denominator
  let above := below + 1
  let middle := (below + above) * denominator
  let upIsNearer := middle < 2 * value || (middle = 2 * value && t.goesUp below)
  match inside below, inside above with
  | true, true => some ⟨if upIsNearer then above else below, exponent⟩
  | true, false => some ⟨below, exponent⟩
  | false, true => some ⟨above, exponent⟩
  | false, false => none

/-- The most digits a number of eight bytes needs. -/
def maxDigits : Nat := 17

/-- The shortest decimal in an interval, without trailing zeros. -/
def shortest (t : Tie) (i : Interval) : Scientific :=
  let top := magnitude i.value i.denominator
  let found := (List.range maxDigits).findSome? fun n => atPlace t i (top - (n + 1 : Nat))
  (found.getD ⟨0, 0⟩).trim maxDigits

end Decimal

end Multidrop
