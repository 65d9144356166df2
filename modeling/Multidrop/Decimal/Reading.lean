import Multidrop.Decimal.Binary
import Multidrop.Decimal.Integer

/-!
# Reading Floating Point Numbers

A floating point number is an optional sign followed by a name, or by digits
with at most one point among them and an optional exponent. The names are
those of the infinity, short and long, and of what is not a number; the case
of their letters does not matter. Digits on one side of the point are enough.

The number read is the nearest one of the format, however many digits were
written; what is too large becomes infinite.

## Main definitions

* `Literal`: The digits and the exponent of a number as written.
* `parseLiteral?`: Read them.
* `parseBinary32?`: The pattern of a number as written.
-/

namespace Multidrop

namespace Decimal

/-- The number `digits * 10 ^ exponent`, as it was written. -/
structure Literal where
  digits : Nat
  exponent : Int
  deriving DecidableEq

/-- Whether a character is a decimal digit. -/
def isDigit (c : Char) : Bool :=
  '0' ≤ c && c ≤ '9'

/-- The number of a run of digits. -/
def digitsValue (cs : List Char) : Nat :=
  cs.foldl (fun n c => 10 * n + (c.toNat - '0'.toNat)) 0

/-- Read an exponent with its sign; the whole text has to be one. -/
def parseExponent? (cs : List Char) : Option Int :=
  let (negative, digits) :=
    match cs with
    | '+' :: rest => (false, rest)
    | '-' :: rest => (true, rest)
    | rest => (false, rest)
  if digits.isEmpty ∨ ¬ digits.all isDigit then none
  else
    let value : Int := digitsValue digits
    some (if negative then -value else value)

/-- Read the digits, the point and the exponent of a number without its
    sign. -/
def parseLiteral? (cs : List Char) : Option Literal :=
  let whole := cs.takeWhile isDigit
  let afterWhole := cs.dropWhile isDigit
  let (fraction, afterFraction) :=
    match afterWhole with
    | '.' :: rest => (rest.takeWhile isDigit, rest.dropWhile isDigit)
    | rest => ([], rest)
  if whole.isEmpty ∧ fraction.isEmpty then none
  else
    let exponent? :=
      match afterFraction with
      | [] => some 0
      | c :: rest => if c = 'e' ∨ c = 'E' then parseExponent? rest else none
    exponent?.map fun exponent =>
      { digits := digitsValue (whole ++ fraction), exponent := exponent - fraction.length }

/-- The pattern nearest to a literal. Where the power of ten alone settles
    that the number is far above or far below all others of the format, it is
    not worked out. -/
def Format.ofLiteral (f : Format) (negative : Bool) (l : Literal) : Nat :=
  let size : Int := l.digits.log2
  let reach : Int := Nat.pow 2 (f.exponentWidth + 4)
  if l.digits = 0 then f.signBit negative
  else if l.exponent > 0 ∧ reach < size + 3 * l.exponent then f.signBit negative + f.infinity
  else if l.exponent < 0 ∧ size + 1 + 3 * l.exponent < -reach then f.signBit negative
  else if 0 ≤ l.exponent then f.nearest negative (l.digits * Nat.pow 10 l.exponent.toNat) 1
  else f.nearest negative l.digits (Nat.pow 10 (-l.exponent).toNat)

/-- A letter without its case. -/
def lowerAscii (c : Char) : Char :=
  if 'A' ≤ c ∧ c ≤ 'Z' then Char.ofNat (c.toNat + 32) else c

/-- The pattern of a number as written. What is not a number reads as the
    quiet pattern with no further bits set, its sign kept. -/
def parseBinary32? (text : List Char) : Option UInt32 :=
  let (negative, body) :=
    match text with
    | '+' :: rest => (false, rest)
    | '-' :: rest => (true, rest)
    | rest => (false, rest)
  let f := binary32
  let name := String.ofList (body.map lowerAscii)
  if name = "inf" ∨ name = "infinity" then
    some (f.signBit negative + f.infinity).toUInt32
  else if name = "nan" then
    some (f.signBit negative + f.infinity + f.fieldSize / 2).toUInt32
  else (parseLiteral? body).map fun l => (f.ofLiteral negative l).toUInt32

end Decimal

end Multidrop
