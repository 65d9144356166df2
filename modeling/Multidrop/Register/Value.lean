import Multidrop.Byte.LittleEndian

/-!
# Register Values

A register holds one of four types of value. The low two bits of a register
sub-frame name the type, and the type fixes the width of what follows.

Floating point values are kept as the thirty-two bits that travel: nothing
here computes with them, and every bit pattern, not-a-numbers included, comes
back as it went.

## Main definitions

* `Kind`: The four types, with their tags, widths and names.
* `Value`: A typed value.
* `Value.encode`, `Value.decode`: Its bytes, the low one first.
-/

namespace Multidrop

namespace Register

/-- The type of a register value. -/
inductive Kind where
  | int8
  | int16
  | int32
  | float
  deriving DecidableEq

namespace Kind

/-- The type named by the low two bits of an identifier. -/
def ofTag (tag : UInt32) : Kind :=
  if tag &&& 3 = 0 then .int8
  else if tag &&& 3 = 1 then .int16
  else if tag &&& 3 = 2 then .int32
  else .float

/-- The two bits that name a type. -/
def tag : Kind → UInt32
  | .int8 => 0
  | .int16 => 1
  | .int32 => 2
  | .float => 3

/-- How many bytes a value of a type takes. -/
def width : Kind → Nat
  | .int8 => 1
  | .int16 => 2
  | .int32 => 4
  | .float => 4

/-- A type as it is written in listings and on the command line. -/
def name : Kind → String
  | .int8 => "int8"
  | .int16 => "int16"
  | .int32 => "int32"
  | .float => "float"

/-- A type as it is written in error messages. -/
def title : Kind → String
  | .int8 => "Int8"
  | .int16 => "Int16"
  | .int32 => "Int32"
  | .float => "Float"

/-- The types in the order of their tags. -/
def all : List Kind := [.int8, .int16, .int32, .float]

/-- The type with a name. -/
def ofName? (text : String) : Option Kind :=
  all.find? (·.name == text)

end Kind

/-- A typed value. -/
inductive Value where
  | int8 (value : Int8)
  | int16 (value : Int16)
  | int32 (value : Int32)
  /-- A floating point number, by its bits. -/
  | float (bits : UInt32)
  deriving DecidableEq

namespace Value

/-- The type of a value. -/
def kind : Value → Kind
  | .int8 _ => .int8
  | .int16 _ => .int16
  | .int32 _ => .int32
  | .float _ => .float

/-- The bytes of a value. -/
def encode : Value → List UInt8
  | .int8 value => [value.toUInt8]
  | .int16 value => Byte.le16 value.toUInt16
  | .int32 value => Byte.le32 value.toUInt32
  | .float bits => Byte.le32 bits

/-- Read a value of a type from the front of some bytes, if there are
    enough. -/
def decode : Kind → List UInt8 → Option (Value × List UInt8)
  | .int8, b0 :: rest => some (.int8 b0.toInt8, rest)
  | .int16, b0 :: b1 :: rest => some (.int16 (Byte.ofLe16 b0 b1).toInt16, rest)
  | .int32, b0 :: b1 :: b2 :: b3 :: rest =>
      some (.int32 (Byte.ofLe32 b0 b1 b2 b3).toInt32, rest)
  | .float, b0 :: b1 :: b2 :: b3 :: rest => some (.float (Byte.ofLe32 b0 b1 b2 b3), rest)
  | _, _ => none

/-- Read `count` values of a type, if there are enough bytes. -/
def decodeMany (kind : Kind) : Nat → List UInt8 → Option (List Value × List UInt8)
  | 0, bytes => some ([], bytes)
  | count + 1, bytes => do
    let (value, rest) ← decode kind bytes
    let (values, rest) ← decodeMany kind count rest
    return (value :: values, rest)

/-- A value takes as many bytes as its type says. -/
@[simp]
theorem length_encode (v : Value) : v.encode.length = v.kind.width := by
  cases v <;> rfl

/-- What follows a value is shorter than what held it, by the value's
    width. -/
theorem length_of_decode {kind : Kind} {bytes rest : List UInt8} {v : Value}
    (h : decode kind bytes = some (v, rest)) : bytes.length = rest.length + kind.width := by
  unfold decode at h
  split at h <;> simp only [Option.some.injEq, Prod.mk.injEq, reduceCtorEq] at h
  all_goals
    rcases h with ⟨-, rfl⟩
    simp only [List.length_cons, Kind.width]

theorem length_of_decodeMany {kind : Kind} {count : Nat} {bytes rest : List UInt8}
    {vs : List Value} (h : decodeMany kind count bytes = some (vs, rest)) :
    rest.length ≤ bytes.length := by
  induction count generalizing bytes vs with
  | zero =>
      simp only [decodeMany, Option.some.injEq, Prod.mk.injEq] at h
      rcases h with ⟨-, rfl⟩
      exact Nat.le_refl _
  | succ count ih =>
      simp only [decodeMany, Option.bind_eq_bind, Option.bind_eq_some_iff, Prod.exists] at h
      rcases h with ⟨v, mid, hv, vs', rest', hvs, hr⟩
      have hlen := length_of_decode hv
      simp only [Option.pure_def, Option.some.injEq, Prod.mk.injEq] at hr
      rcases hr with ⟨-, rfl⟩
      have := ih hvs
      omega

end Value

end Register

end Multidrop
