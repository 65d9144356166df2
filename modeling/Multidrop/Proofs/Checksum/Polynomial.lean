import Mathlib
import Multidrop.Proofs.Checksum

/-!
# The Checksum as a Polynomial

The checksum in the two forms in which it is usually defined. In hardware it
is a register of sixteen bits into which a message is clocked bit by bit, the
top bit of each byte first. On paper it is a remainder: the message, with
sixteen zeros behind it and the preset added to its first sixteen bits, is a
polynomial over the two-element field, and is divided by the generator.

`residue` is the word that is left of some bits after the reduction by
`shift`. So both forms come down to what a shift does to the polynomial of a
word: it multiplies by x, and where that reaches degree sixteen it subtracts
the generator, since x^16 is what all other terms of it make up.

The register is linear. How the checksums of two messages of one length
differ is told by where the messages differ, and the differences add up.

## Main definitions

* `clock`: Clock one bit into the register.
* `ofWord`, `ofBits`: The polynomials of a word and of some bits.
* `generator`: What is divided by.
* `difference`: What differing bits make of the checksum.

## Theorems

* `crc16_eq_foldl_clock`: The checksum is what a register holds at the end.
* `ofWord_shift`: A shift multiplies by x and reduces.
* `ofWord_residue`: What is left of some bits is their remainder.
* `crc16_is_remainder`: The checksum in all its forms.
-/

open Polynomial (C X)
open scoped Polynomial

namespace Multidrop

namespace Checksum

/-- Clock one bit into the register. It meets the bit that leaves at the top,
    and where the two differ the generator is subtracted. -/
def clock (register : UInt16) (bit : Bool) : UInt16 :=
  if register.toBitVec.msb ^^ bit then (register <<< 1) ^^^ 0x1021 else register <<< 1

/-- A bit as an element of the two-element field. -/
def coefficient (bit : Bool) : ZMod 2 :=
  if bit then 1 else 0

/-- The polynomial of a word, whose lowest bit is the constant term. -/
noncomputable def ofWord (w : UInt16) : (ZMod 2)[X] :=
  ∑ i ∈ Finset.range 16, C (coefficient (w.toBitVec.getLsbD i)) * X ^ i

/-- The polynomial of some bits, the highest coefficient first. -/
noncomputable def ofBits : List Bool → (ZMod 2)[X]
  | [] => 0
  | bit :: bits => C (coefficient bit) * X ^ bits.length + ofBits bits

/-- What the checksum is a remainder of a division by. -/
noncomputable def generator : (ZMod 2)[X] :=
  X ^ 16 + X ^ 12 + X ^ 5 + 1

/-- What differing bits make of the checksum: they go through a register that is
    clear at first. -/
def difference (pattern : List UInt8) : UInt16 :=
  pattern.foldl update 0

variable {v w : UInt16}

/-! ### The register, bit by bit -/

/-- x^16 is what all other terms of the generator make up. -/
theorem shifts_bit (bit : Bool) : shifts 16 bit.toUInt16 = if bit then polynomial else 0 := by
  cases bit with
  | false => exact shifts_zero 16
  | true => decide +kernel

/-- A bit that is clocked in is as good as one that stood sixteen places behind
    the register. -/
theorem clock_eq (w : UInt16) (bit : Bool) :
    clock w bit = shift w ^^^ shifts 16 bit.toUInt16 := by
  -- The bit that leaves and the one that comes in subtract the same thing, or cancel.
  have hsum : ∀ top bit : Bool,
      (if top then polynomial else 0) ^^^ (if bit then polynomial else 0) =
        if top ^^ bit then polynomial else 0 := by
    decide
  rw [clock, shift_eq, shifts_bit, carry, UInt16.xor_assoc, hsum]
  split
  · rfl
  · exact UInt16.xor_zero.symm

/-- What is in the register goes through all shifts, and the bits come in
    sixteen places higher. By induction on the bits. -/
theorem foldl_clock (bits : List Bool) (w : UInt16) :
    bits.foldl clock w = shifts bits.length w ^^^ shifts 16 (residue bits) := by
  induction bits generalizing w with
  | nil =>
      have hnone : shifts 16 (residue []) = 0 := shifts_zero 16
      rw [hnone, UInt16.xor_zero]
      rfl
  | cons bit bits ih =>
      have hfirst : shifts (bits.length + 1) w = shifts bits.length (shift w) := rfl
      -- The first bit is shifted as far as those behind it reach.
      rw [List.foldl_cons, ih, clock_eq, residue, List.length_cons, hfirst, shifts_xor, shifts_xor,
        ← shifts_add, ← shifts_add, Nat.add_comm, UInt16.xor_assoc]

/-- The checksum is what is in the register when all bits are clocked in. -/
theorem crc16_eq_foldl_clock (bytes : List UInt8) :
    crc16 bytes = (bits bytes).foldl clock preset := by
  rw [crc16_eq_serial, serial, foldl_serialUpdate, foldl_clock, length_bits]

/-! ### Words as polynomials -/

theorem coefficient_xor (first second : Bool) :
    coefficient (first ^^ second) = coefficient first + coefficient second := by
  cases first <;> cases second <;> decide

theorem coefficient_inj {first second : Bool} (h : coefficient first = coefficient second) :
    first = second := by
  revert h
  cases first <;> cases second <;> decide

theorem coeff_ofWord (w : UInt16) (i : Nat) :
    (ofWord w).coeff i = coefficient (w.toBitVec.getLsbD i) := by
  rw [ofWord, Polynomial.finsetSum_coeff]
  simp only [Polynomial.coeff_C_mul_X_pow]
  rw [Finset.sum_ite_eq]
  by_cases hi : i < 16
  · rw [if_pos (Finset.mem_range.mpr hi)]
  · rw [if_neg (fun h => hi (Finset.mem_range.mp h)), BitVec.getLsbD_of_ge _ _ (Nat.not_lt.mp hi)]
    rfl

/-- A word is known by its polynomial. -/
theorem ofWord_inj : ofWord v = ofWord w ↔ v = w := by
  refine ⟨fun h => ?_, congrArg ofWord⟩
  apply UInt16.toBitVec_inj.mp
  apply BitVec.eq_of_getLsbD_eq
  intro i _
  have hcoeff := congrArg (Polynomial.coeff · i) h
  simp only [coeff_ofWord] at hcoeff
  exact coefficient_inj hcoeff

theorem ofWord_xor (v w : UInt16) : ofWord (v ^^^ w) = ofWord v + ofWord w := by
  ext i
  rw [Polynomial.coeff_add, coeff_ofWord, coeff_ofWord, coeff_ofWord, UInt16.toBitVec_xor,
    BitVec.getLsbD_xor, coefficient_xor]

theorem ofWord_zero : ofWord 0 = 0 := by
  have hself := ofWord_xor 0 0
  rw [UInt16.xor_self] at hself
  exact left_eq_add.mp hself

/-- A single bit in the lowest place is a constant. -/
theorem ofWord_bit (bit : Bool) : ofWord bit.toUInt16 = C (coefficient bit) := by
  ext i
  have hbit : bit.toUInt16.toBitVec.getLsbD i = (decide (i = 0) && bit) := by
    cases bit <;> simp
  rw [coeff_ofWord, Polynomial.coeff_C, hbit]
  by_cases hi : i = 0
  · rw [if_pos hi, decide_eq_true hi, Bool.true_and]
  · rw [if_neg hi, decide_eq_false hi, Bool.false_and]
    rfl

theorem ofWord_polynomial : ofWord polynomial = X ^ 12 + X ^ 5 + 1 := by
  simp [ofWord, Finset.sum_range_succ, coefficient, polynomial]
  ring

theorem ofWord_carry (w : UInt16) :
    ofWord (carry w) = C (coefficient w.toBitVec.msb) * (X ^ 12 + X ^ 5 + 1) := by
  rw [carry]
  cases w.toBitVec.msb with
  | true =>
      have hone : C (coefficient true) = 1 := Polynomial.C_1
      rw [if_pos rfl, ofWord_polynomial, hone, one_mul]
  | false =>
      have hzero : C (coefficient false) = 0 := Polynomial.C_0
      rw [if_neg Bool.noConfusion, ofWord_zero, hzero, zero_mul]

/-! ### Remainders -/

theorem monic_generator : generator.Monic := by
  rw [generator]
  monicity!

theorem degree_generator : generator.degree = (16 : Nat) := by
  rw [generator]
  compute_degree!

theorem degree_ofWord_lt (w : UInt16) : (ofWord w).degree < (16 : Nat) := by
  rw [Polynomial.degree_lt_iff_coeff_zero]
  intro i hi
  rw [coeff_ofWord, BitVec.getLsbD_of_ge _ _ hi]
  rfl

/-- A word has no terms to reduce. -/
theorem ofWord_modByMonic (w : UInt16) : ofWord w %ₘ generator = ofWord w := by
  rw [Polynomial.modByMonic_eq_self_iff monic_generator, degree_generator]
  exact degree_ofWord_lt w

/-- A factor may be reduced before it is multiplied. -/
theorem mul_modByMonic_right (p q : (ZMod 2)[X]) :
    p * (q %ₘ generator) %ₘ generator = p * q %ₘ generator := by
  apply Polynomial.modByMonic_eq_of_dvd_sub monic_generator
  rw [← mul_sub]
  exact (Polynomial.dvd_modByMonic_sub q generator).mul_left p

theorem getLsbD_shiftLeft_one (w : UInt16) (i : Nat) :
    (w <<< 1).toBitVec.getLsbD (i + 1) = (decide (i + 1 < 16) && w.toBitVec.getLsbD i) := by
  simp

/-- Moving up by one place multiplies by x, but for the bit that leaves. -/
theorem X_mul_ofWord (w : UInt16) :
    X * ofWord w = ofWord (w <<< 1) + C (coefficient w.toBitVec.msb) * X ^ 16 := by
  ext i
  rw [Polynomial.coeff_add, coeff_ofWord, Polynomial.coeff_C_mul_X_pow]
  cases i with
  | zero => simp [coefficient]
  | succ i =>
      rw [Polynomial.coeff_X_mul, coeff_ofWord, BitVec.msb_eq_getLsbD_last, getLsbD_shiftLeft_one]
      -- Only the top bit moves to where a word has no place.
      rcases Nat.lt_trichotomy i 15 with hi | hi | hi
      · rw [decide_eq_true (by omega), Bool.true_and, if_neg (by omega), add_zero]
      · rw [hi, decide_eq_false (by decide), Bool.false_and, if_pos rfl]
        exact (zero_add _).symm
      · rw [BitVec.getLsbD_of_ge _ _ (by omega), Bool.and_false, if_neg (by omega), add_zero]

/-- A shift multiplies by x and reduces. -/
theorem ofWord_shift (w : UInt16) : ofWord (shift w) = X * ofWord w %ₘ generator := by
  have hgenerator : generator = X ^ 16 + (X ^ 12 + X ^ 5 + 1) := by
    rw [generator]
    ring
  -- In the two-element field the carry, added twice, is nothing.
  have hsplit : X * ofWord w =
      ofWord (shift w) + C (coefficient w.toBitVec.msb) * generator := by
    rw [X_mul_ofWord, shift_eq, ofWord_xor, ofWord_carry, hgenerator, mul_add _ (X ^ 16),
      add_assoc, add_left_comm (_ * (X ^ 12 + X ^ 5 + 1)), CharTwo.add_self_eq_zero, add_zero]
  rw [hsplit, Polynomial.add_modByMonic, Polynomial.mul_self_modByMonic monic_generator, add_zero,
    ofWord_modByMonic]

theorem ofWord_shifts (n : Nat) (w : UInt16) :
    ofWord (shifts n w) = X ^ n * ofWord w %ₘ generator := by
  induction n generalizing w with
  | zero => rw [shifts, pow_zero, one_mul, ofWord_modByMonic]
  | succ n ih => rw [shifts, ih, ofWord_shift, mul_modByMonic_right, ← mul_assoc, pow_succ]

/-- What is left of some bits is the remainder of their polynomial. -/
theorem ofWord_residue (bits : List Bool) : ofWord (residue bits) = ofBits bits %ₘ generator := by
  induction bits with
  | nil => rw [residue, ofBits, ofWord_zero, Polynomial.zero_modByMonic]
  | cons bit bits ih =>
      rw [residue, ofBits, ofWord_xor, ofWord_shifts, ih, ofWord_bit, mul_comm,
        Polynomial.add_modByMonic]

/-- The checksum is the remainder of the message sixteen places higher, with the
    preset in front. -/
theorem ofWord_crc16 (bytes : List UInt8) :
    ofWord (crc16 bytes) =
      (ofBits (bits bytes) * X ^ 16 + ofWord preset * X ^ (8 * bytes.length)) %ₘ generator := by
  rw [crc16_eq_serial, serial, foldl_serialUpdate, ofWord_xor, ofWord_shifts, ofWord_shifts,
    ofWord_residue, mul_modByMonic_right, ← Polynomial.add_modByMonic, add_comm, mul_comm,
    mul_comm (X ^ (8 * bytes.length))]

/-! ### Differences -/

/-- A register that is clear at first holds only what comes in. -/
theorem difference_eq (pattern : List UInt8) :
    difference pattern = shifts 16 (residue (bits pattern)) := by
  rw [difference, foldl_update, foldl_serialUpdate, shifts_zero, UInt16.zero_xor]

/-- The checksum of nothing but zeros is what the preset makes of it, and the
    bytes are a difference from these. -/
theorem crc16_eq_difference (bytes : List UInt8) :
    crc16 bytes = shifts (8 * bytes.length) preset ^^^ difference bytes := by
  rw [crc16_eq_serial, serial, foldl_serialUpdate, difference_eq]

/-- Differences add up. -/
theorem difference_flip {first second : List UInt8} (h : second.length = first.length) :
    difference (Byte.flip first second) = difference first ^^^ difference second := by
  rw [difference_eq, difference_eq, difference_eq, residue_flip h, shifts_xor]

/-- How the checksums of two messages differ is told by where these differ. -/
theorem crc16_xor {first second : List UInt8} (h : second.length = first.length) :
    crc16 first ^^^ crc16 second = difference (Byte.flip first second) := by
  have hsame : ∀ common v w : UInt16, common ^^^ v ^^^ (common ^^^ w) = v ^^^ w := by
    intro common v w
    rw [UInt16.xor_comm common v, UInt16.xor_assoc, ← UInt16.xor_assoc common, UInt16.xor_self,
      UInt16.zero_xor]
  rw [crc16_eq_difference, crc16_eq_difference, h, hsame, difference_flip h]

/-! ### The checksum -/

/-- The checksum in all its forms. It is what a register that is preset to ones
    holds when all bits of the message are clocked in. It is the word whose
    polynomial is the remainder, by the generator, of the message times x^16 and
    the preset times as many places as the message has bits. And the checksums of
    two messages of one length differ by what the bits in which the messages
    differ make of it, which is additive. -/
theorem crc16_is_remainder :
    (∀ bytes : List UInt8, crc16 bytes = (bits bytes).foldl clock 0xffff) ∧
    (∀ (bytes : List UInt8) (w : UInt16), crc16 bytes = w ↔
      ofWord w =
        (ofBits (bits bytes) * X ^ 16 + ofWord 0xffff * X ^ (8 * bytes.length)) %ₘ generator) ∧
    (∀ first second : List UInt8, second.length = first.length →
      crc16 first ^^^ crc16 second = difference (Byte.flip first second)) ∧
    ∀ first second : List UInt8, second.length = first.length →
      difference (Byte.flip first second) = difference first ^^^ difference second := by
  refine ⟨crc16_eq_foldl_clock, fun bytes w => ?_, fun _ _ => crc16_xor,
    fun _ _ => difference_flip⟩
  have hremainder := ofWord_crc16 bytes
  rw [preset] at hremainder
  rw [← hremainder, ofWord_inj]
  exact eq_comm

/-- Two messages that differ in the lowest bit of their last byte, and what that
    makes of the checksum. -/
theorem crc16_is_remainder_last_bit :
    ([0x31, 0x33] : List UInt8).length = ([0x31, 0x32] : List UInt8).length ∧
      crc16 [0x31, 0x32] ^^^ crc16 [0x31, 0x33] = difference [0x00, 0x01] ∧
      difference [0x00, 0x01] = difference [0x31, 0x32] ^^^ difference [0x31, 0x33] := by
  have hlength : ([0x31, 0x33] : List UInt8).length = ([0x31, 0x32] : List UInt8).length := rfl
  have hflip : Byte.flip [0x31, 0x32] [0x31, 0x33] = [0x00, 0x01] := by decide
  rcases crc16_is_remainder with ⟨_, _, hdiffer, hadd⟩
  refine ⟨rfl, ?_, ?_⟩
  · rw [hdiffer _ _ hlength, hflip]
  · rw [← hadd _ _ hlength, hflip]

example : crc16 [0x31, 0x32, 0x33, 0x34, 0x35, 0x36, 0x37, 0x38, 0x39] = 0x29b1 := by
  decide +kernel

end Checksum

end Multidrop
