import Mathlib.Algebra.GroupWithZero.Nat
import Multidrop.Checksum
import Multidrop.Proofs.Frame.Form

/-!
# The Checksum as a Remainder

Bits are the coefficients of a polynomial over the two-element field, the
highest one first, and a word is a polynomial of degree below sixteen. A shift
multiplies by x and reduces by the generator x^16 + x^12 + x^5 + 1. The
checksum of some bytes is, up to what the preset makes of it, the remainder of
their polynomial times x^16.

All of this is linear: a pattern of flipped bits changes the checksum by a
word that depends on the pattern only, and goes unnoticed just if the generator
divides the pattern. Three facts about the generator say which patterns it
does not divide. Its constant term is one, so it divides a window of sixteen
bits only where they are all clear. It has four terms, so all its multiples
have an even number of terms. And x does not return to one within the length
of a frame, so it does not divide two bits in the same frame.

## Main definitions

* `Byte.bits`, `bits`: The bits of a byte and of bytes, the top bit first.
* `Byte.flip`: Bytes with some bits flipped.
* `residue`: The remainder of a polynomial.
* `parity`: Whether a word has an odd number of terms.

## Theorems

* `crc16_eq_serial`: The table gives what the shift register gives.
* `crc16_flip`: What flipped bits change about the checksum.
* `residue_ne_zero_of_odd`, `residue_ne_zero_of_window`,
  `residue_ne_zero_of_pair`: Patterns the generator does not divide.
-/

namespace Multidrop

namespace Byte

/-- The bits of a byte, the top bit first. -/
def bits (b : UInt8) : List Bool :=
  (List.range 8).map fun i => b.toNat.testBit (7 - i)

/-- Bytes with the bits flipped that are set in a pattern. -/
def flip (bytes pattern : List UInt8) : List UInt8 :=
  List.zipWith (· ^^^ ·) bytes pattern

@[simp]
theorem length_bits (b : UInt8) : (bits b).length = 8 := by
  rw [bits, List.length_map, List.length_range]

/-- The two bytes of a word have no bits in common. -/
theorem ofLe16_eq_xor (low high : UInt8) :
    ofLe16 low high = low.toUInt16 ^^^ (high.toUInt16 <<< 8) := by
  apply UInt16.toBitVec_inj.mp
  apply BitVec.eq_of_getLsbD_eq
  intro i _
  rw [ofLe16, UInt16.toBitVec_or, UInt16.toBitVec_xor, BitVec.getLsbD_or, BitVec.getLsbD_xor,
    UInt16.toBitVec_shiftLeft]
  by_cases hi : i < 8
  · simp [hi]
  · have hlow : low.toBitVec.getLsbD i = false :=
      BitVec.getLsbD_of_ge _ _ (Nat.not_lt.mp hi)
    simp [hlow]

theorem ofLe16_xor (low high low' high' : UInt8) :
    ofLe16 (low ^^^ low') (high ^^^ high') = ofLe16 low high ^^^ ofLe16 low' high' := by
  rw [ofLe16_eq_xor, ofLe16_eq_xor, ofLe16_eq_xor, UInt8.toUInt16_xor, UInt8.toUInt16_xor,
    UInt16.shiftLeft_xor]
  ac_rfl

theorem length_flip {bytes pattern : List UInt8} (h : pattern.length = bytes.length) :
    (flip bytes pattern).length = bytes.length := by
  rw [flip, List.length_zipWith, h, Nat.min_self]

theorem flip_append {front pattern : List UInt8} (h : pattern.length = front.length)
    (back pattern' : List UInt8) :
    flip (front ++ back) (pattern ++ pattern') = flip front pattern ++ flip back pattern' :=
  List.zipWith_append h.symm

/-- Where no bit is set, none is flipped. -/
theorem flip_clear (bytes : List UInt8) :
    flip bytes (List.replicate bytes.length 0) = bytes := by
  induction bytes with
  | nil => rfl
  | cons b bytes ih =>
      rw [List.length_cons, List.replicate_succ, flip, List.zipWith_cons_cons, UInt8.xor_zero,
        ← flip, ih]

end Byte

namespace Checksum

variable {v w : UInt16}

/-- What a shift adds where the top bit leaves the register. -/
def carry (w : UInt16) : UInt16 :=
  if w.toBitVec.msb then polynomial else 0

/-- Whether an odd number of the lowest `n` bits is set. -/
def parityBelow (w : UInt16) : Nat → Bool
  | 0 => false
  | n + 1 => w.toBitVec.getLsbD n ^^ parityBelow w n

/-- Whether a word has an odd number of terms. -/
def parity (w : UInt16) : Bool :=
  parityBelow w 16

/-- The remainder of the polynomial with these coefficients, the highest one
    first. -/
def residue : List Bool → UInt16
  | [] => 0
  | bit :: bits => shifts bits.length bit.toUInt16 ^^^ residue bits

/-- The bits of some bytes in the order they are shifted in. -/
def bits (bytes : List UInt8) : List Bool :=
  bytes.flatMap Byte.bits

theorem shift_eq (w : UInt16) : shift w = (w <<< 1) ^^^ carry w := by
  have htop : (w &&& 0x8000).toBitVec = if w.toBitVec.msb then 0x8000 else 0 := by
    rw [UInt16.toBitVec_and, BitVec.msb_eq_getLsbD_last]
    exact BitVec.and_twoPow w.toBitVec 15
  have hzero : w &&& 0x8000 = 0 ↔ w.toBitVec.msb = false := by
    rw [← UInt16.toBitVec_inj, htop]
    cases w.toBitVec.msb <;> decide
  rw [shift, carry]
  cases hmsb : w.toBitVec.msb with
  | true => rw [if_neg (by rw [hzero, hmsb]; exact Bool.noConfusion), if_pos rfl]
  | false => rw [if_pos (hzero.mpr hmsb), if_neg Bool.noConfusion, UInt16.xor_zero]

theorem carry_xor (v w : UInt16) : carry (v ^^^ w) = carry v ^^^ carry w := by
  rw [carry, carry, carry, UInt16.toBitVec_xor, BitVec.msb_xor]
  cases v.toBitVec.msb <;> cases w.toBitVec.msb <;> decide

/-- A shift of a sum is the sum of the shifts. -/
theorem shift_xor (v w : UInt16) : shift (v ^^^ w) = shift v ^^^ shift w := by
  rw [shift_eq, shift_eq, shift_eq, carry_xor, UInt16.shiftLeft_xor]
  ac_rfl

/-- The generator has a constant term, so only the empty word shifts to the
    empty word. -/
theorem shift_eq_zero (h : shift w = 0) : w = 0 := by
  rw [shift_eq, UInt16.xor_eq_zero_iff] at h
  have hbit := congrArg (fun u : UInt16 => u.toNat % 2) h
  have hshift : (w <<< 1).toNat = 2 * w.toNat % 65536 := by
    rw [UInt16.toNat_shiftLeft, Nat.shiftLeft_eq, Nat.mul_comm]
    rfl
  have hmsb : w.toBitVec.msb = decide (2 ^ 15 ≤ w.toNat) := BitVec.msb_eq_decide ..
  simp only [hshift] at hbit
  rw [carry, hmsb] at h hbit
  by_cases htop : 2 ^ 15 ≤ w.toNat
  · rw [decide_eq_true htop, if_pos rfl] at hbit
    have hodd : polynomial.toNat % 2 = 1 := by decide
    omega
  · rw [decide_eq_false htop, if_neg Bool.noConfusion] at h
    have hzero := congrArg UInt16.toNat h
    rw [hshift] at hzero
    apply UInt16.toNat_inj.mp
    rw [UInt16.toNat_zero] at hzero ⊢
    omega

theorem shifts_xor (n : Nat) (v w : UInt16) : shifts n (v ^^^ w) = shifts n v ^^^ shifts n w := by
  induction n generalizing v w with
  | zero => rfl
  | succ n ih => rw [shifts, shifts, shifts, shift_xor, ih]

theorem shifts_add (m n : Nat) (w : UInt16) : shifts (m + n) w = shifts n (shifts m w) := by
  induction m generalizing w with
  | zero => rw [Nat.zero_add, shifts]
  | succ m ih => rw [Nat.succ_add, shifts, shifts, ih]

@[simp]
theorem shifts_zero (n : Nat) : shifts n 0 = 0 := by
  induction n with
  | zero => rfl
  | succ n ih => exact ih

theorem shifts_eq_zero {n : Nat} (h : shifts n w = 0) : w = 0 := by
  induction n generalizing w with
  | zero => exact h
  | succ n ih => exact shift_eq_zero (ih h)

theorem parityBelow_xor (v w : UInt16) (n : Nat) :
    parityBelow (v ^^^ w) n = (parityBelow v n ^^ parityBelow w n) := by
  induction n with
  | zero => rfl
  | succ n ih =>
      rw [parityBelow, parityBelow, parityBelow, ih, UInt16.toBitVec_xor, BitVec.getLsbD_xor,
        Bool.xor_assoc, Bool.xor_assoc, Bool.xor_left_comm (parityBelow v n)]

theorem parity_xor (v w : UInt16) : parity (v ^^^ w) = (parity v ^^ parity w) :=
  parityBelow_xor v w 16

/-- Moving up by one place keeps all bits but the one that leaves. -/
theorem parityBelow_shiftLeft (w : UInt16) {n : Nat} (h : n < 16) :
    parityBelow (w <<< 1) (n + 1) = parityBelow w n := by
  induction n with
  | zero => simp [parityBelow]
  | succ n ih =>
      have hbit : (w <<< 1).toBitVec.getLsbD (n + 1) = w.toBitVec.getLsbD n := by
        simp [h, BitVec.getLsbD_eq_getElem (Nat.lt_of_succ_lt h)]
      rw [parityBelow, ih (Nat.lt_of_succ_lt h), parityBelow, hbit]

/-- The generator has an even number of terms, so reducing by it keeps the
    parity. -/
theorem parity_shift (w : UInt16) : parity (shift w) = parity w := by
  have hshift : parity (w <<< 1) = parityBelow w 15 := parityBelow_shiftLeft w (by decide)
  have hcarry : parity (carry w) = w.toBitVec.msb := by
    rw [carry]
    cases w.toBitVec.msb <;> decide
  have hw : parity w = (w.toBitVec.msb ^^ parityBelow w 15) := by
    rw [parity, parityBelow, BitVec.msb_eq_getLsbD_last]
  rw [shift_eq, parity_xor, hshift, hcarry, hw, Bool.xor_comm]

theorem parity_shifts (n : Nat) (w : UInt16) : parity (shifts n w) = parity w := by
  induction n generalizing w with
  | zero => rfl
  | succ n ih => rw [shifts, ih, parity_shift]

/-- A clear bit adds nothing. -/
theorem residue_clear_cons (bits : List Bool) : residue (false :: bits) = residue bits :=
  (congrArg (· ^^^ residue bits) (shifts_zero bits.length)).trans UInt16.zero_xor

/-- A bit that is set adds the power of x at its place. -/
theorem residue_set_cons (bits : List Bool) :
    residue (true :: bits) = shifts bits.length 1 ^^^ residue bits := rfl

/-- The remainder has an odd number of terms just if the polynomial has. -/
theorem parity_residue (bits : List Bool) :
    parity (residue bits) = decide (bits.count true % 2 = 1) := by
  induction bits with
  | nil => decide
  | cons bit bits ih =>
      cases bit with
      | true =>
          have hone : parity 1 = true := by decide
          rw [residue_set_cons, parity_xor, parity_shifts, hone, ih, List.count_cons_self]
          rcases Nat.mod_two_eq_zero_or_one (bits.count true) with h | h <;>
            simp [Nat.add_mod, h]
      | false => rw [residue_clear_cons, ih, List.count_cons_of_ne Bool.noConfusion]

/-- A pattern with an odd number of bits is not divided, since the generator
    has an even number of terms. -/
theorem residue_ne_zero_of_odd {bits : List Bool} (h : bits.count true % 2 = 1) :
    residue bits ≠ 0 := by
  intro hzero
  have hparity := parity_residue bits
  rw [hzero, decide_eq_true h] at hparity
  exact absurd hparity (by decide)

theorem residue_append (front back : List Bool) :
    residue (front ++ back) = shifts back.length (residue front) ^^^ residue back := by
  induction front with
  | nil => rw [List.nil_append, residue, shifts_zero, UInt16.zero_xor]
  | cons bit front ih =>
      rw [List.cons_append, residue, residue, ih, List.length_append, shifts_add, shifts_xor,
        UInt16.xor_assoc]

@[simp]
theorem residue_clear (n : Nat) : residue (List.replicate n false) = 0 := by
  induction n with
  | zero => rfl
  | succ n ih => rw [List.replicate_succ, residue_clear_cons, ih]

/-- What stands between clear bits is divided only if it is divided alone. -/
theorem residue_between {before behind : Nat} {window : List Bool}
    (h : residue (List.replicate before false ++ window ++ List.replicate behind false) = 0) :
    residue window = 0 := by
  rw [residue_append, residue_append, residue_clear, residue_clear, shifts_zero,
    UInt16.zero_xor, UInt16.xor_zero] at h
  exact shifts_eq_zero h

/-- Below sixteen places a power of x is a word of its own. -/
theorem toNat_shifts_one {n : Nat} (h : n < 16) : (shifts n 1).toNat = 2 ^ n :=
  have hall : ∀ n : Fin 16, (shifts n.val 1).toNat = 2 ^ n.val := by decide
  hall ⟨n, h⟩

/-- Up to sixteen bits are their own remainder, which has no higher terms. -/
theorem residue_lt {window : List Bool} (h : window.length ≤ 16) :
    (residue window).toNat < 2 ^ window.length := by
  induction window with
  | nil => decide
  | cons bit window ih =>
      rw [List.length_cons] at h ⊢
      have hpow : 2 ^ window.length < 2 ^ (window.length + 1) :=
        Nat.pow_lt_pow_right (by decide) (Nat.lt_succ_self _)
      have htail := Nat.lt_trans (ih (Nat.le_of_succ_le h)) hpow
      cases bit with
      | false =>
          rw [residue_clear_cons]
          exact htail
      | true =>
          rw [residue_set_cons, UInt16.toNat_xor, toNat_shifts_one h]
          exact Nat.xor_lt_two_pow hpow htail

/-- Up to sixteen bits are not divided unless all are clear. -/
theorem residue_ne_zero_of_window {window : List Bool} (h : window.length ≤ 16)
    (hset : true ∈ window) : residue window ≠ 0 := by
  induction window with
  | nil => exact absurd hset List.not_mem_nil
  | cons bit window ih =>
      rw [List.length_cons] at h
      cases bit with
      | false =>
          rw [residue_clear_cons]
          exact ih (Nat.le_of_succ_le h) (List.mem_of_ne_of_mem Bool.noConfusion hset)
      | true =>
          -- Nothing behind the first bit that is set reaches its place.
          intro hzero
          rw [residue_set_cons, UInt16.xor_eq_zero_iff] at hzero
          have hlt := residue_lt (Nat.le_of_succ_le h)
          rw [← hzero, toNat_shifts_one h] at hlt
          exact Nat.lt_irrefl _ hlt

/-- What stands between clear bits is not divided if it is a window with a bit
    that is set. -/
theorem residue_ne_zero_of_within {bits window : List Bool} {before behind : Nat}
    (h : bits = List.replicate before false ++ window ++ List.replicate behind false)
    (hwindow : window.length ≤ 16) (hset : bits.count true ≠ 0) : residue bits ≠ 0 := by
  intro hzero
  have hmem : true ∈ window := by
    rw [← List.count_pos_iff, Nat.pos_iff_ne_zero]
    intro hcount
    refine hset ?_
    rw [h, List.count_append, List.count_append, List.count_replicate, List.count_replicate,
      hcount]
    rfl
  rw [h] at hzero
  exact residue_ne_zero_of_window hwindow hmem (residue_between hzero)

/-- None of the next `n` shifts gives one. -/
def avoidsOne : Nat → UInt16 → Bool
  | 0, _ => true
  | n + 1, w => shift w != 1 && avoidsOne n (shift w)

theorem shifts_ne_one {n : Nat} (h : avoidsOne n w = true) {m : Nat} (hpos : 0 < m)
    (hle : m ≤ n) : shifts m w ≠ 1 := by
  induction n generalizing m w with
  | zero => omega
  | succ n ih =>
      rw [avoidsOne, Bool.and_eq_true, bne_iff_ne] at h
      match m, hpos with
      | 1, _ => exact h.1
      | m + 2, _ => exact ih h.2 (Nat.succ_pos m) (Nat.le_of_succ_le_succ hle)

/-- How far apart two bits of a frame can be at most: the bits of the longest
    frame less one. -/
def span : Nat := 2103

/-- x does not return to one within a frame. -/
theorem avoidsOne_span : avoidsOne span 1 = true := by
  decide +kernel

/-- Two bits are not divided if a frame holds both. -/
theorem residue_ne_zero_of_pair {before between behind : Nat} (h : between < span) :
    residue (List.replicate before false ++
      (true :: (List.replicate between false ++ [true])) ++ List.replicate behind false) ≠ 0 := by
  intro hzero
  have hpair := residue_between hzero
  have hlast : residue [true] = 1 := rfl
  rw [residue_set_cons, residue_append, residue_clear, shifts_zero, UInt16.zero_xor, hlast,
    UInt16.xor_eq_zero_iff, List.length_append, List.length_replicate] at hpair
  exact shifts_ne_one avoidsOne_span (Nat.succ_pos between) h hpair

/-- Bits none of which is set. -/
theorem eq_clear {bits : List Bool} (h : bits.count true = 0) :
    bits = List.replicate bits.length false := by
  rw [List.eq_replicate_iff]
  refine ⟨rfl, fun bit hbit => ?_⟩
  rw [List.count_eq_zero] at h
  rw [← Bool.not_eq_true]
  exact fun htrue => h (htrue ▸ hbit)

/-- The first bit that is set. -/
theorem exists_first {bits : List Bool} {n : Nat} (h : bits.count true = n + 1) :
    ∃ before rest, bits = List.replicate before false ++ true :: rest ∧ rest.count true = n := by
  induction bits with
  | nil => exact absurd h (Nat.succ_ne_zero n).symm
  | cons bit bits ih =>
      cases bit with
      | true =>
          rw [List.count_cons_self] at h
          exact ⟨0, bits, rfl, Nat.succ.inj h⟩
      | false =>
          rw [List.count_cons_of_ne Bool.noConfusion] at h
          rcases ih h with ⟨before, rest, hbits, hrest⟩
          exact ⟨before + 1, rest, congrArg (false :: ·) hbits, hrest⟩

/-- Two bits are told apart from none if there are no more bits than in the
    longest frame. -/
theorem residue_ne_zero_of_two {bits : List Bool} (h : bits.count true = 2)
    (hlength : bits.length ≤ span + 1) : residue bits ≠ 0 := by
  rcases exists_first h with ⟨before, rest, hbits, hrest⟩
  rcases exists_first hrest with ⟨between, behind, hbehind, hclear⟩
  have hsplit : bits = List.replicate before false ++
      (true :: (List.replicate between false ++ [true])) ++
      List.replicate behind.length false := by
    rw [← eq_clear hclear, hbits, hbehind]
    simp only [List.append_assoc, List.cons_append, List.nil_append]
  have hspan : between < span := by
    have hle := congrArg List.length hsplit
    simp only [List.length_append, List.length_replicate, List.length_cons, List.length_nil]
      at hle
    omega
  rw [hsplit]
  exact residue_ne_zero_of_pair hspan

/-- The bits of a byte stand for the byte. -/
theorem residue_byte (b : UInt8) : residue (Byte.bits b) = b.toUInt16 := by
  have hall : ∀ i : Fin 256,
      residue (Byte.bits (UInt8.ofFin i)) = (UInt8.ofFin i).toUInt16 := by
    decide +kernel
  exact hall b.toFin

theorem length_bits (bytes : List UInt8) : (bits bytes).length = 8 * bytes.length := by
  induction bytes with
  | nil => rfl
  | cons b bytes ih =>
      rw [bits, List.flatMap_cons, List.length_append, Byte.length_bits, ← bits, ih,
        List.length_cons, Nat.mul_succ, Nat.add_comm]

theorem bits_append (front back : List UInt8) : bits (front ++ back) = bits front ++ bits back :=
  List.flatMap_append

theorem bits_clear (n : Nat) :
    bits (List.replicate n 0) = List.replicate (8 * n) false := by
  induction n with
  | zero => rfl
  | succ n ih =>
      have hbyte : Byte.bits 0 = List.replicate 8 false := by decide
      rw [List.replicate_succ, bits, List.flatMap_cons, ← bits, ih, hbyte,
        List.replicate_append_replicate, Nat.mul_succ, Nat.add_comm]

theorem residue_bits_cons (b : UInt8) (bytes : List UInt8) :
    residue (bits (b :: bytes)) =
      shifts (8 * bytes.length) b.toUInt16 ^^^ residue (bits bytes) := by
  rw [bits, List.flatMap_cons, ← bits, residue_append, length_bits, residue_byte]

/-- A byte in the lower half moves to the upper half without reducing. -/
theorem shifts_byte (b : UInt8) : shifts 8 b.toUInt16 = b.toUInt16 <<< 8 := by
  have hall : ∀ i : Fin 256,
      shifts 8 (UInt8.ofFin i).toUInt16 = (UInt8.ofFin i).toUInt16 <<< 8 := by
    decide +kernel
  exact hall b.toFin

theorem entry_eq (b : UInt8) : entry b = shifts 8 (b.toUInt16 <<< 8) := by
  have hsize : b.toNat < table.size := by
    rw [table, Array.size_ofFn]
    exact UInt8.toNat_lt b
  have hword : b.toNat.toUInt16 = b.toUInt16 :=
    UInt16.ofNat_uInt8ToNat b
  rw [entry, Array.getD_eq_getD_getElem?, Array.getElem?_eq_getElem hsize, Option.getD_some]
  simp only [table, Array.getElem_ofFn]
  rw [hword]

/-- A byte from the table is eight shifts. The lower half of the register
    moves up as it is, so only the upper half has to be looked up. -/
theorem update_eq_serialUpdate (w : UInt16) (b : UInt8) : update w b = serialUpdate w b := by
  have hw : w = w.toUInt8.toUInt16 ^^^ ((w >>> 8).toUInt8.toUInt16 <<< 8) := by
    rw [← Byte.ofLe16_eq_xor, Byte.ofLe16_le16]
  have hup : w <<< 8 = w.toUInt8.toUInt16 <<< 8 := by
    apply UInt16.toNat_inj.mp
    rw [UInt16.toNat_shiftLeft, UInt16.toNat_shiftLeft, UInt8.toNat_toUInt16,
      UInt16.toNat_toUInt8, Nat.shiftLeft_eq, Nat.shiftLeft_eq]
    simp only [UInt16.toNat_ofNat, Nat.reducePow, Nat.reduceMod]
    omega
  have hjoin : w ^^^ (b.toUInt16 <<< 8) =
      w.toUInt8.toUInt16 ^^^ (((w >>> 8).toUInt8 ^^^ b).toUInt16 <<< 8) := by
    rw [UInt8.toUInt16_xor, UInt16.shiftLeft_xor, ← UInt16.xor_assoc, ← hw]
  rw [update, serialUpdate, entry_eq, hup, ← shifts_byte, ← shifts_xor, hjoin]

/-- The table gives what the shift register gives, whatever is in it before. -/
theorem foldl_update (bytes : List UInt8) (w : UInt16) :
    bytes.foldl update w = bytes.foldl serialUpdate w := by
  have hupdate : update = serialUpdate := funext fun w => funext (update_eq_serialUpdate w)
  rw [hupdate]

/-- The table gives what the shift register gives. -/
theorem crc16_eq_serial (bytes : List UInt8) : crc16 bytes = serial bytes :=
  foldl_update bytes preset

/-- What is in the register goes through all shifts, and the bytes are taken
    in sixteen places higher. -/
theorem foldl_serialUpdate (bytes : List UInt8) (w : UInt16) :
    bytes.foldl serialUpdate w =
      shifts (8 * bytes.length) w ^^^ shifts 16 (residue (bits bytes)) := by
  induction bytes generalizing w with
  | nil =>
      have hnone : shifts 16 (residue (bits [])) = 0 := shifts_zero 16
      rw [hnone, UInt16.xor_zero]
      rfl
  | cons b bytes ih =>
      have hbyte : shifts 8 (b.toUInt16 <<< 8) = shifts 16 b.toUInt16 := by
        rw [← shifts_byte, ← shifts_add]
      rw [List.foldl_cons, ih, residue_bits_cons, serialUpdate, shifts_xor, shifts_xor,
        shifts_xor, hbyte, ← shifts_add, ← shifts_add, ← shifts_add, List.length_cons,
        Nat.mul_succ, Nat.add_comm 8, Nat.add_comm 16, UInt16.xor_assoc]

theorem residue_flip {bytes pattern : List UInt8} (h : pattern.length = bytes.length) :
    residue (bits (Byte.flip bytes pattern)) =
      residue (bits bytes) ^^^ residue (bits pattern) := by
  induction bytes generalizing pattern with
  | nil => 
      rw [List.length_nil, List.length_eq_zero_iff] at h
      rw [h]
      rfl
  | cons b bytes ih =>
      match pattern with
      | p :: pattern =>
          have hlength : pattern.length = bytes.length := Nat.succ.inj h
          have hcons : Byte.flip (b :: bytes) (p :: pattern) =
            (b ^^^ p) :: Byte.flip bytes pattern := rfl
          rw [hcons, residue_bits_cons, residue_bits_cons, residue_bits_cons, ih hlength,
            Byte.length_flip hlength, hlength, UInt8.toUInt16_xor, shifts_xor]
          ac_rfl

/-- What flipped bits change about the checksum depends on the bits alone. -/
theorem crc16_flip {bytes pattern : List UInt8} (h : pattern.length = bytes.length) :
    crc16 (Byte.flip bytes pattern) = crc16 bytes ^^^ shifts 16 (residue (bits pattern)) := by
  rw [crc16_eq_serial, crc16_eq_serial, serial, serial, foldl_serialUpdate, foldl_serialUpdate,
    residue_flip h, shifts_xor, Byte.length_flip h, UInt16.xor_assoc]

end Checksum

end Multidrop
