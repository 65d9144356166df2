import Mathlib.Algebra.GroupWithZero.Nat
import Multidrop.Proofs.Frame.Form
import Multidrop.Register.Value

/-!
# Values and Their Bytes

Every value is read back from its bytes, and every run of bytes that is as
long as its type asks for is the bytes of a value of that type. So values and
byte strings of their width are the same thing, for floating point numbers
too, whose bits are never looked at.

## Theorems

* `decode_encode`, `decodeMany_encode`: Values are read back.
* `exists_value`, `exists_values`: Bytes that are long enough are values.
* `decode_short`: Bytes that are not are none.
-/

namespace Multidrop

namespace Byte

/-- The bytes of a word of two bytes. -/
theorem le16_ofLe16 (b0 b1 : UInt8) : le16 (ofLe16 b0 b1) = [b0, b1] := by
  have hinj := ofLe16_le16 (ofLe16 b0 b1)
  rcases ofLe16_inj.mp hinj with ⟨hlow, hhigh⟩
  rw [le16, hlow, hhigh]

/-- Where the lower places are free, joining bits is adding them. -/
theorem or_shiftLeft {low places : Nat} (h : low < 2 ^ places) (high : Nat) :
    low ||| high <<< places = low + 2 ^ places * high := by
  rw [Nat.or_comm, ← Nat.shiftLeft_add_eq_or_of_lt h, Nat.shiftLeft_eq, Nat.mul_comm,
    Nat.add_comm]

theorem toNat_ofLe32 (b0 b1 b2 b3 : UInt8) :
    (ofLe32 b0 b1 b2 b3).toNat =
      b0.toNat + 256 * b1.toNat + 65536 * b2.toNat + 16777216 * b3.toNat := by
  have h0 := UInt8.toNat_lt b0
  have h1 := UInt8.toNat_lt b1
  have h2 := UInt8.toNat_lt b2
  have h3 := UInt8.toNat_lt b3
  -- No byte is shifted out of the word.
  have hshift : ∀ (b : UInt8) (places : Nat), places ≤ 24 →
      b.toNat <<< places % 2 ^ 32 = b.toNat <<< places := by
    intro b places hplaces
    rw [Nat.shiftLeft_eq]
    exact Nat.mod_eq_of_lt (Nat.lt_of_le_of_lt
      (Nat.mul_le_mul_left _ (Nat.pow_le_pow_right (by decide) hplaces))
      (Nat.mul_lt_mul_of_pos_right (UInt8.toNat_lt b) (by decide)))
  have hb1 := hshift b1 8 (by decide)
  have hb2 := hshift b2 16 (by decide)
  have hb3 := hshift b3 24 (by decide)
  simp only [ofLe32, UInt32.toNat_or, UInt32.toNat_shiftLeft, UInt8.toNat_toUInt32,
    UInt32.toNat_ofNat, Nat.reducePow, Nat.reduceMod] at hb1 hb2 hb3 ⊢
  -- Each byte lies above those that are joined already.
  have htwo : b0.toNat + 2 ^ 8 * b1.toNat < 2 ^ 16 := by omega
  have hthree : b0.toNat + 2 ^ 8 * b1.toNat + 2 ^ 16 * b2.toNat < 2 ^ 24 := by omega
  have hjoin : b0.toNat ||| b1.toNat <<< 8 ||| b2.toNat <<< 16 ||| b3.toNat <<< 24 =
      b0.toNat + 2 ^ 8 * b1.toNat + 2 ^ 16 * b2.toNat + 2 ^ 24 * b3.toNat := by
    rw [or_shiftLeft h0, or_shiftLeft htwo, or_shiftLeft hthree]
  rw [hb1, hb2, hb3]
  exact hjoin.trans (by omega)

/-- A word is read back from its four bytes. -/
theorem ofLe32_le32 (w : UInt32) :
    ofLe32 w.toUInt8 (w >>> 8).toUInt8 (w >>> 16).toUInt8 (w >>> 24).toUInt8 = w := by
  have hword := UInt32.toNat_lt w
  apply UInt32.toNat_inj.mp
  rw [toNat_ofLe32, UInt32.toNat_toUInt8, UInt32.toNat_toUInt8, UInt32.toNat_toUInt8,
    UInt32.toNat_toUInt8, UInt32.toNat_shiftRight, UInt32.toNat_shiftRight,
    UInt32.toNat_shiftRight]
  simp only [UInt32.toNat_ofNat, Nat.reducePow, Nat.reduceMod, Nat.shiftRight_eq_div_pow]
    at hword ⊢
  omega

/-- The bytes of a word of four bytes. -/
theorem le32_ofLe32 (b0 b1 b2 b3 : UInt8) : le32 (ofLe32 b0 b1 b2 b3) = [b0, b1, b2, b3] := by
  have hword := congrArg UInt32.toNat (ofLe32_le32 (ofLe32 b0 b1 b2 b3))
  rw [toNat_ofLe32, toNat_ofLe32] at hword
  simp only [le32, List.cons.injEq, and_true, ← UInt8.toNat_inj]
  have h0 := UInt8.toNat_lt b0
  have h1 := UInt8.toNat_lt b1
  have h2 := UInt8.toNat_lt b2
  have h3 := UInt8.toNat_lt b3
  have h0' := UInt8.toNat_lt (ofLe32 b0 b1 b2 b3).toUInt8
  have h1' := UInt8.toNat_lt (ofLe32 b0 b1 b2 b3 >>> 8).toUInt8
  have h2' := UInt8.toNat_lt (ofLe32 b0 b1 b2 b3 >>> 16).toUInt8
  have h3' := UInt8.toNat_lt (ofLe32 b0 b1 b2 b3 >>> 24).toUInt8
  omega

end Byte

namespace Register

namespace Value

variable {kind : Kind} {bytes : List UInt8}

theorem width_pos (kind : Kind) : 0 < kind.width := by
  cases kind with
  | _ => decide

/-- A value is read back from its bytes. -/
theorem decode_encode (v : Value) (rest : List UInt8) :
    decode v.kind (v.encode ++ rest) = some (v, rest) := by
  cases v with
  | int8 value => rfl
  | int16 value =>
      simp only [encode, kind, decode, Byte.le16, List.cons_append, List.nil_append,
        Byte.ofLe16_le16, Int16.toInt16_toUInt16]
  | int32 value =>
      simp only [encode, kind, decode, Byte.le32, List.cons_append, List.nil_append,
        Byte.ofLe32_le32, Int32.toInt32_toUInt32]
  | float bits =>
      simp only [encode, kind, decode, Byte.le32, List.cons_append, List.nil_append,
        Byte.ofLe32_le32]

/-- Bytes that are long enough begin with a value. -/
theorem exists_value (h : kind.width ≤ bytes.length) :
    ∃ v rest, v.kind = kind ∧ bytes = encode v ++ rest := by
  cases kind with
  -- One byte, two or four of them, and every pattern is a value.
  | int8 =>
      match bytes, h with
      | b0 :: rest, _ => exact ⟨.int8 b0.toInt8, rest, rfl, rfl⟩
  | int16 =>
      match bytes, h with
      | b0 :: b1 :: rest, _ =>
          refine ⟨.int16 (Byte.ofLe16 b0 b1).toInt16, rest, rfl, ?_⟩
          have hword : (Byte.ofLe16 b0 b1).toInt16.toUInt16 = Byte.ofLe16 b0 b1 := rfl
          rw [encode, hword, Byte.le16_ofLe16]
          rfl
  | int32 =>
      match bytes, h with
      | b0 :: b1 :: b2 :: b3 :: rest, _ =>
          refine ⟨.int32 (Byte.ofLe32 b0 b1 b2 b3).toInt32, rest, rfl, ?_⟩
          have hword : (Byte.ofLe32 b0 b1 b2 b3).toInt32.toUInt32 = Byte.ofLe32 b0 b1 b2 b3 :=
            rfl
          rw [encode, hword, Byte.le32_ofLe32]
          rfl
  | float =>
      match bytes, h with
      | b0 :: b1 :: b2 :: b3 :: rest, _ =>
          refine ⟨.float (Byte.ofLe32 b0 b1 b2 b3), rest, rfl, ?_⟩
          rw [encode, Byte.le32_ofLe32]
          rfl

/-- Bytes that are too short are none. -/
theorem decode_short (h : bytes.length < kind.width) : decode kind bytes = none := by
  rcases hdecode : decode kind bytes with _ | ⟨v, rest⟩
  · rfl
  · have hlength := length_of_decode hdecode
    omega

theorem length_flatMap_encode {values : List Value} (h : ∀ v ∈ values, v.kind = kind) :
    (values.flatMap encode).length = values.length * kind.width := by
  induction values with
  | nil => rw [List.flatMap_nil, List.length_nil, List.length_nil, Nat.zero_mul]
  | cons v values ih =>
      rcases List.forall_mem_cons.mp h with ⟨hv, hvalues⟩
      rw [List.flatMap_cons, List.length_append, length_encode, hv, ih hvalues,
        List.length_cons, Nat.succ_mul, Nat.add_comm]

/-- Values of a type are read back from their bytes. -/
theorem decodeMany_encode {values : List Value} (h : ∀ v ∈ values, v.kind = kind)
    (rest : List UInt8) :
    decodeMany kind values.length (values.flatMap encode ++ rest) = some (values, rest) := by
  induction values with
  | nil => rfl
  | cons v values ih =>
      rcases List.forall_mem_cons.mp h with ⟨hv, hvalues⟩
      rw [List.length_cons, List.flatMap_cons, List.append_assoc, decodeMany, ← hv,
        decode_encode, hv]
      simp only [Option.bind_eq_bind, Option.bind_some, ih hvalues]
      rfl

/-- Bytes that are long enough begin with as many values. -/
theorem exists_values {count : Nat} (h : count * kind.width ≤ bytes.length) :
    ∃ (values : List Value) (rest : List UInt8), values.length = count ∧
      (∀ v ∈ values, v.kind = kind) ∧ bytes = values.flatMap encode ++ rest := by
  induction count generalizing bytes with
  | zero => exact ⟨[], bytes, rfl, fun _ hv => absurd hv List.not_mem_nil, rfl⟩
  | succ count ih =>
      rw [Nat.succ_mul] at h
      have hfirst : kind.width ≤ bytes.length := by omega
      rcases exists_value hfirst with ⟨v, behind, hv, hbytes⟩
      have hbehind : count * kind.width ≤ behind.length := by
        rw [hbytes, List.length_append, length_encode, hv] at h
        omega
      rcases ih hbehind with ⟨values, rest, hlength, hvalues, hrest⟩
      refine ⟨v :: values, rest, congrArg Nat.succ hlength,
        List.forall_mem_cons.mpr ⟨hv, hvalues⟩, ?_⟩
      rw [hbytes, hrest, List.flatMap_cons, List.append_assoc]

end Value

end Register

end Multidrop
