/-!
# Variable-Length Unsigned Integers

Numbers below 2^32 in groups of seven bits, the least significant group
first. The top bit of a byte says that another byte follows, so a number is
complete at the first byte whose top bit is clear. Identifiers, register
numbers, counts, channels and lengths all travel in this form.

A reader has to stop somewhere on a corrupt stream: a number takes at most
five bytes, and five bytes can still hold more than thirty-two bits. Both
faults are errors of their own, `Error.overlong` and `Error.outOfRange`.

`Decoder` takes one byte at a time, for sources that deliver their bytes one
by one; `read` runs it over a list and hands back what follows the number.

## Main definitions

* `encode`: The bytes of a number, as few as hold it.
* `size`: How many bytes that is.
* `Decoder.push`: Feed one byte.
* `read`: Take one number from the front of a list.

## Theorems

* `length_read_le`: Reading never lengthens what is left.
* `length_read_lt`: Reading a number takes at least one byte.
-/

namespace Multidrop

namespace Varuint

/-- The most bytes a number may take. -/
def maxSize : Nat := 5

/-- Why some bytes are not a number below 2^32. -/
inductive Error where
  /-- The fifth byte still announces another one. -/
  | overlong
  /-- The number is complete, and too large. -/
  | outOfRange (value : UInt64)
  deriving DecidableEq

/-- The wording of an error. -/
def Error.message : Error → String
  | .overlong => s!"varuint longer than {maxSize} bytes"
  | .outOfRange value => s!"varuint value {value} exceeds u32"

/-- The seven-bit groups of a number, all but the last with the top bit set. -/
def groups (n : Nat) : List UInt8 :=
  if n < 128 then [UInt8.ofNat n] else UInt8.ofNat (n % 128 + 128) :: groups (n / 128)
termination_by n

/-- The bytes of a number. -/
def encode (value : UInt32) : List UInt8 :=
  groups value.toNat

/-- How many seven-bit groups a number has. -/
def groupCount (n : Nat) : Nat :=
  if n < 128 then 1 else groupCount (n / 128) + 1
termination_by n

/-- How many bytes a number takes. -/
def size (value : UInt32) : Nat :=
  groupCount value.toNat

/-- A number under construction: the bits so far and how many bytes they
    came from. -/
structure Decoder where
  value : UInt64 := 0
  consumed : Nat := 0
  deriving DecidableEq

/-- Feed the next byte. A complete number, in range or not, leaves the
    decoder as new; an overlong one does not, so the bytes that follow it are
    still taken for its own.

    Behind ten bytes that announce another one the group would be shifted out of
    the 64 bits. A build that checks its arithmetic stops there; what is said here
    of such a push is what a build without the checks does, where the shift counts
    modulo 64. -/
def Decoder.push (d : Decoder) (byte : UInt8) : Except Error (Option UInt32) × Decoder :=
  let value := d.value ||| ((byte &&& 0x7f).toUInt64 <<< (7 * d.consumed).toUInt64)
  let consumed := d.consumed + 1
  if byte &&& 0x80 = 0 then
    if value ≤ 0xffffffff then (.ok (some value.toUInt32), {})
    else (.error (.outOfRange value), {})
  else if consumed ≥ maxSize then (.error .overlong, { value, consumed })
  else (.ok none, { value, consumed })

/-- Feed the bytes of a list until the number ends, and give back the rest.
    A list that runs out first yields no number and is used up. -/
def readFrom (d : Decoder) : List UInt8 → Except Error (Option UInt32) × List UInt8
  | [] => (.ok none, [])
  | byte :: rest =>
    match d.push byte with
    | (.ok none, d') => readFrom d' rest
    | (.ok (some value), _) => (.ok (some value), rest)
    | (.error e, _) => (.error e, rest)

/-- Take one number from the front of a list. -/
def read (bytes : List UInt8) : Except Error (Option UInt32) × List UInt8 :=
  readFrom {} bytes

/-- What each of a run of bytes gives when all go through one decoder: its
    verdict, and the decoder after it. -/
def Decoder.pushAll (d : Decoder) : List UInt8 → List (Except Error (Option UInt32) × Decoder)
  | [] => []
  | byte :: rest =>
    let step := d.push byte
    step :: step.2.pushAll rest

theorem length_readFrom_le (d : Decoder) (bytes : List UInt8) :
    (readFrom d bytes).2.length ≤ bytes.length := by
  induction bytes generalizing d with
  | nil => simp only [readFrom, List.length_nil, Nat.le_refl]
  | cons byte rest ih =>
      simp only [readFrom, List.length_cons]
      split
      · exact Nat.le_succ_of_le (ih _)
      · exact Nat.le_succ _
      · exact Nat.le_succ _

/-- Reading never lengthens what is left. -/
theorem length_read_le (bytes : List UInt8) : (read bytes).2.length ≤ bytes.length :=
  length_readFrom_le {} bytes

theorem length_readFrom_lt (d : Decoder) (byte : UInt8) (rest : List UInt8) :
    (readFrom d (byte :: rest)).2.length < (byte :: rest).length := by
  simp only [readFrom, List.length_cons]
  split
  · exact Nat.lt_succ_of_le (length_readFrom_le _ _)
  · exact Nat.lt_succ_self _
  · exact Nat.lt_succ_self _

/-- Reading takes at least one byte where there is one, so what follows a
    number is shorter than what held it. -/
theorem length_read_lt {bytes : List UInt8} (h : bytes ≠ []) :
    (read bytes).2.length < bytes.length := by
  cases bytes with
  | nil => exact absurd rfl h
  | cons byte rest => exact length_readFrom_lt {} byte rest

end Varuint

end Multidrop
