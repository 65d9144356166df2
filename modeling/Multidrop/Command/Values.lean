import Multidrop.Command.Outcome
import Multidrop.Decimal.Integer
import Multidrop.Decimal.Reading
import Multidrop.Text.Blank
import Multidrop.Text.Quoted

/-!
# Values on the Command Line

How durations and register values are written as arguments. A duration is a
whole number of seconds, or of milliseconds with the unit behind it. A
register value is written as its type asks; one that does not fit its type is
refused and nothing is rounded.

## Main definitions

* `parseDuration`: Read a duration.
* `parseValue?`, `parseValues`: Read register values.
-/

namespace Multidrop

namespace Command

/-- A text without the mark at its end, if it ends in the mark. -/
def before? (mark : List Char) (text : List Char) : Option (List Char) :=
  if mark.isSuffixOf text then some (text.take (text.length - mark.length)) else none

/-- The number of a duration, and how many nanoseconds its unit has. -/
def splitUnit (text : List Char) : List Char × Nat :=
  match before? ['m', 's'] text with
  | some number => (number, Duration.ofMillis 1)
  | none =>
    match before? ['s'] text with
    | some number => (number, Duration.ofSecs 1)
    | none => (text, Duration.ofSecs 1)

/-- Read a duration. Blanks around it do not count, and it may not be
    zero. -/
def parseDuration (text : String) : Except Failure Duration :=
  let trimmed := Text.trim text
  if trimmed.isEmpty then .error ⟨usage, "duration must not be empty"⟩
  else
    let (number, unit) := splitUnit trimmed.toList
    match Decimal.Range.unsigned64.parse 10 number with
    | .error _ => .error ⟨usage, s!"invalid duration value: {trimmed}"⟩
    | .ok value =>
      if value = 0 then .error ⟨usage, "duration must be greater than zero"⟩
      else .ok (value.toNat * unit)

/-- Read a register value of a type. -/
def parseValue? (kind : Register.Kind) (text : List Char) : Option Register.Value :=
  match kind with
  | .int8 => (Decimal.Range.signed 8).parse 10 text |>.toOption.map fun n => .int8 n.toInt8
  | .int16 => (Decimal.Range.signed 16).parse 10 text |>.toOption.map fun n => .int16 n.toInt16
  | .int32 => (Decimal.Range.signed 32).parse 10 text |>.toOption.map fun n => .int32 n.toInt32
  | .float => (Decimal.parseBinary32? text).map .float

/-- Read register values of a type, up to the first one that is none. Blanks
    around a value do not count. -/
def parseValues (kind : Register.Kind) : List String → Except Failure (List Register.Value)
  | [] => .ok []
  | text :: more =>
    match parseValue? kind (Text.trim text).toList with
    | none => .error ⟨usage, s!"{Text.quoted text} is not a valid {kind.name} value"⟩
    | some value => (parseValues kind more).map (value :: ·)

end Command

end Multidrop
