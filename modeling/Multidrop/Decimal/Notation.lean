import Multidrop.Decimal.Shortest

/-!
# Decimal Notation

Two ways of writing floating point numbers. Listings for people never use an
exponent: a number is written out to its last digit, and a whole number has no
point. The exchange format keeps a point in every number that is written out,
goes over to an exponent for numbers that are very small or very large, and
has no way to write infinities. Of two decimals that are equally near, a
listing takes the larger, and the exchange format the one whose last digit is
even.

## Main definitions

* `Scientific.positional`: Digits and zeros, with a point where one is due.
* `Scientific.exponential`: One digit, a point, the rest, and an exponent.
* `plain`: A number in a listing.
* `exchanged`: A number in the exchange format.
-/

namespace Multidrop

namespace Decimal

/-- A run of zeros. -/
def zeros (count : Nat) : String :=
  String.ofList (List.replicate count '0')

/-- The decimal digits of a number. -/
def digitsOf (n : Nat) : String :=
  String.ofList (Nat.toDigits 10 n)

/-- Write a decimal without an exponent; `whole` closes one that has no
    digits behind the point. -/
def Scientific.positional (s : Scientific) (whole : String) : String :=
  let ds := (digitsOf s.digits).toList
  if 0 ≤ s.exponent then String.ofList ds ++ zeros s.exponent.toNat ++ whole
  else
    let places := (-s.exponent).toNat
    if places < ds.length then
      String.ofList (ds.take (ds.length - places)) ++ "." ++
        String.ofList (ds.drop (ds.length - places))
    else "0." ++ zeros (places - ds.length) ++ String.ofList ds

/-- Write a decimal with one digit before the point, and no point where there
    is only one digit. -/
def Scientific.exponential (s : Scientific) : String :=
  let ds := (digitsOf s.digits).toList
  let power : Int := s.exponent + (ds.length - 1 : Nat)
  let mantissa :=
    match ds with
    | [] => ""
    | [d] => String.ofList [d]
    | d :: more => String.ofList (d :: '.' :: more)
  let sign := if power < 0 then "-" else "+"
  s!"{mantissa}e{sign}{digitsOf power.natAbs}"

/-- The sign of a number, as it is written. -/
def signText (negative : Bool) : String :=
  if negative then "-" else ""

/-- The shortest decimal of a positive number of eight bytes. -/
def shortestOf (t : Tie) (significand : Nat) (exponent : Int) : Scientific :=
  if significand = 0 then ⟨0, 0⟩
  else shortest t (Interval.ofFinite binary64 significand exponent)

/-- A number of eight bytes in a listing: never an exponent, no point in a
    whole number, and the sign of zero kept. -/
def plain : Datum → String
  | .nan => "NaN"
  | .infinite negative => signText negative ++ "inf"
  | .finite negative significand exponent =>
      signText negative ++ (shortestOf .up significand exponent).positional ""

/-- The powers of ten between which the exchange format writes numbers
    out. -/
def writtenOut : Int × Int := (-5, 16)

/-- A number of eight bytes in the exchange format. -/
def exchanged : Datum → String
  | .nan => "null"
  | .infinite _ => "null"
  | .finite negative significand exponent =>
      let s := shortestOf .toEven significand exponent
      let top : Int := s.exponent + digitCount s.digits
      let text :=
        if significand = 0 ∨ writtenOut.1 < top ∧ top ≤ writtenOut.2 then s.positional ".0"
        else s.exponential
      signText negative ++ text

end Decimal

end Multidrop
