import Multidrop.Decimal.Notation

/-!
# Durations

Spans of time, counted in nanoseconds. A message shows a duration in the
largest unit that has a whole part, with as many decimals as it needs: 50ms,
1.5s, 1.001µs, 999ns.

There is no last moment here. The clock of a real host has one, and a program
that adds a timeout to a moment close enough to it is stopped, as with a timeout
of 18446744073709551615s. Such timeouts are left out: what is said of a deadline
holds where the clock of the host can express it.

## Main definitions

* `Duration`: A number of nanoseconds.
* `Duration.text`: A duration as it is shown.
-/

namespace Multidrop

/-- A span of time in nanoseconds. Points in time are counted from a start
    that stays fixed. -/
abbrev Duration := Nat

namespace Duration

/-- A number of microseconds. -/
def ofMicros (n : Nat) : Duration := n * 1000

/-- A number of milliseconds. -/
def ofMillis (n : Nat) : Duration := n * 1000000

/-- A number of seconds. -/
def ofSecs (n : Nat) : Duration := n * 1000000000

/-- Whole seconds. -/
def secs (d : Duration) : Nat := d / 1000000000

/-- Whole milliseconds beside the whole seconds. -/
def subMillis (d : Duration) : Nat := d / 1000000 % 1000

/-- Digits with leading zeros up to a number of places. -/
def padded (places n : Nat) : List Char :=
  let ds := Nat.toDigits 10 n
  List.replicate (places - ds.length) '0' ++ ds

/-- A duration in units of `10 ^ places` nanoseconds, without zeros at the
    end. -/
def inUnit (places : Nat) (unit : String) (d : Duration) : String :=
  let fraction := padded places (d % Nat.pow 10 places)
  let kept := (fraction.reverse.dropWhile (· == '0')).reverse
  let decimals := if kept.isEmpty ∨ places = 0 then "" else "." ++ String.ofList kept
  Decimal.digitsOf (d / Nat.pow 10 places) ++ decimals ++ unit

/-- A duration as it is shown. -/
def text (d : Duration) : String :=
  if Nat.pow 10 9 ≤ d then inUnit 9 "s" d
  else if Nat.pow 10 6 ≤ d then inUnit 6 "ms" d
  else if Nat.pow 10 3 ≤ d then inUnit 3 "µs" d
  else inUnit 0 "ns" d

end Duration

end Multidrop
