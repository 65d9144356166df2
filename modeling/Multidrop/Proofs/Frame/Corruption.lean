import Multidrop.Proofs.Checksum
import Multidrop.Proofs.Frame.Decode

/-!
# Frames with Flipped Bits

Bits that are flipped on the way leave a frame that is still taken as a whole,
as long as the magic and the length arrive as they were sent. Whether the
checksum tells is a question about the pattern of flipped bits alone, read as
a polynomial: the checksum bytes come last, the low one in front, so the
polynomial has them the other way round.

Patterns of few bits, of an odd number of bits, within one byte, or within
sixteen consecutive bits of what the checksum covers are all told.

## Main definitions

* `Flips`: The bits that are flipped in a frame.
* `Flips.Caught`: The patterns that are always told.
* `Flips.polynomial`: A pattern as a polynomial.

## Theorems

* `Flips.residue_ne_zero`: The generator divides no pattern that is caught.
* `decode_flipped`: What a reader makes of a frame with flipped bits.
-/

namespace Multidrop

namespace Frame

/-- The bits that are flipped in a frame with a payload of some size. The
    magic and the length arrive as they were sent. -/
structure Flips (size : Nat) where
  source : UInt8
  destination : UInt8
  payload : List UInt8
  crcLow : UInt8
  crcHigh : UInt8
  length_payload : payload.length = size

namespace Flips

variable {size : Nat}

/-- The bits that are flipped in the bytes the checksum covers. -/
def covered (p : Flips size) : List UInt8 :=
  [0, 0, p.source, p.destination] ++ List.replicate (Varuint.size size.toUInt32) 0 ++ p.payload

/-- The bits that are flipped in the bytes of the frame. -/
def bytes (p : Flips size) : List UInt8 :=
  p.covered ++ [p.crcLow, p.crcHigh]

/-- How many bits are flipped. -/
def weight (p : Flips size) : Nat :=
  (Checksum.bits p.bytes).count true

/-- The patterns that are always told. -/
inductive Caught (p : Flips size) : Prop where
  /-- At most three bits. -/
  | few (h : p.weight ≤ 3)
  /-- An odd number of bits. -/
  | odd (h : p.weight % 2 = 1)
  /-- Bits of a single byte. -/
  | byte (before behind : Nat) (b : UInt8)
      (h : p.bytes = List.replicate before 0 ++ b :: List.replicate behind 0)
  /-- Bits among sixteen consecutive ones that the checksum covers. -/
  | burst (before behind : Nat) (window : List Bool)
      (h : Checksum.bits p.covered =
        List.replicate before false ++ window ++ List.replicate behind false)
      (hwindow : window.length ≤ 16) (hlow : p.crcLow = 0) (hhigh : p.crcHigh = 0)

/-- The pattern with its bits in the order of their powers. -/
def polynomial (p : Flips size) : List Bool :=
  Checksum.bits (p.covered ++ [p.crcHigh, p.crcLow])

variable {p : Flips size}

theorem length_covered (p : Flips size) :
    p.covered.length = headerSize + Varuint.size size.toUInt32 + size := by
  simp only [covered, List.length_append, List.length_cons, List.length_nil,
    List.length_replicate, p.length_payload, headerSize]

/-- The polynomial has the bits of the pattern. -/
theorem count_polynomial (p : Flips size) : p.polynomial.count true = p.weight := by
  have hswap : ∀ b c, (Checksum.bits [b, c]).count true = (Checksum.bits [c, b]).count true := by
    intro b c
    simp only [Checksum.bits, List.flatMap_cons, List.flatMap_nil, List.append_nil,
      List.count_append, Nat.add_comm]
  rw [polynomial, weight, bytes, Checksum.bits_append, Checksum.bits_append, List.count_append,
    List.count_append, hswap]

/-- The remainder of the pattern. The bytes the checksum covers stand sixteen
    places above the checksum. -/
theorem residue_polynomial (p : Flips size) :
    Checksum.residue p.polynomial =
      Checksum.shifts 16 (Checksum.residue (Checksum.bits p.covered)) ^^^
        Byte.ofLe16 p.crcLow p.crcHigh := by
  have hlow : Checksum.residue (Checksum.bits [p.crcLow]) = p.crcLow.toUInt16 :=
    (Checksum.residue_bits_cons _ _).trans UInt16.xor_zero
  have hcrc : Checksum.residue (Checksum.bits [p.crcHigh, p.crcLow]) =
      Byte.ofLe16 p.crcLow p.crcHigh := by
    rw [Checksum.residue_bits_cons, hlow, List.length_singleton, Checksum.shifts_byte,
      UInt16.xor_comm, ← Byte.ofLe16_eq_xor]
  rw [polynomial, Checksum.bits_append, Checksum.residue_append, hcrc, Checksum.length_bits]
  rfl

/-- The longest frame has room for no two bits further apart than the span. -/
theorem length_polynomial_le (p : Flips size) (hsize : size ≤ maxPayload) :
    p.polynomial.length ≤ Checksum.span + 1 := by
  rw [maxPayload] at hsize
  have hnumber : Varuint.size size.toUInt32 ≤ 1 + 1 := by
    have hvalue : size.toUInt32.toNat = size :=
      UInt32.toNat_ofNat_of_lt' (Nat.lt_of_le_of_lt hsize (by decide))
    rw [← Varuint.length_encode, Varuint.encode, hvalue]
    exact Varuint.length_groups_of_lt (Nat.lt_of_le_of_lt hsize (by decide))
  rw [polynomial, Checksum.length_bits, List.length_append, length_covered, headerSize]
  simp only [List.length_cons, List.length_nil, Checksum.span]
  omega

/-- Where all flipped bits lie in one byte, they do so as well once the bytes
    of the checksum have changed places. -/
theorem exists_byte {before behind : Nat} {b : UInt8}
    (h : p.bytes = List.replicate before 0 ++ b :: List.replicate behind 0) :
    ∃ before behind, p.covered ++ [p.crcHigh, p.crcLow] =
      List.replicate before 0 ++ b :: List.replicate behind 0 := by
  rw [bytes] at h
  match behind with
  | 0 =>
      -- The byte is the last one, and comes before the other one.
      have hsplit : (p.covered ++ [p.crcLow]) ++ [p.crcHigh] = List.replicate before 0 ++ [b] := by
        rw [List.append_assoc]
        exact h
      rcases List.append_inj' hsplit rfl with ⟨hfront, hlast⟩
      rcases List.append_eq_replicate_iff.mp hfront with ⟨_, hcovered, hlow⟩
      refine ⟨p.covered.length, 1, ?_⟩
      rw [hcovered, List.length_replicate, List.singleton_inj.mp hlast,
        List.singleton_inj.mp hlow]
      rfl
  | 1 =>
      -- It is the low byte of the checksum, which then comes last.
      rcases List.append_inj' h rfl with ⟨hcovered, hlast⟩
      rw [List.replicate_one, List.cons.injEq] at hlast
      refine ⟨before + 1, 0, ?_⟩
      rw [hcovered, hlast.1, List.singleton_inj.mp hlast.2, List.replicate_succ', List.append_assoc]
      rfl
  | behind + 2 =>
      -- It is before the checksum, and that is all zero in either order.
      have hsplit : p.covered ++ [p.crcLow, p.crcHigh] =
          (List.replicate before 0 ++ b :: List.replicate behind 0) ++ [0, 0] := by
        rw [h, ← List.replicate_append_replicate, List.append_assoc]
        rfl
      rcases List.append_inj' hsplit rfl with ⟨hcovered, hlast⟩
      rw [List.cons.injEq, List.singleton_inj] at hlast
      refine ⟨before, behind + 2, ?_⟩
      rw [hcovered, hlast.1, hlast.2, ← List.replicate_append_replicate, List.append_assoc]
      rfl

/-- So a byte is a window of the polynomial. -/
theorem polynomial_of_byte {before behind : Nat} {b : UInt8}
    (h : p.bytes = List.replicate before 0 ++ b :: List.replicate behind 0) :
    ∃ before behind, p.polynomial =
      List.replicate before false ++ Byte.bits b ++ List.replicate behind false := by
  rcases exists_byte h with ⟨before, behind, hbytes⟩
  refine ⟨8 * before, 8 * behind, ?_⟩
  rw [polynomial, hbytes, Checksum.bits_append, Checksum.bits_clear, Checksum.bits,
    List.flatMap_cons, ← Checksum.bits, Checksum.bits_clear, List.append_assoc]

/-- The generator divides no pattern that is caught. -/
theorem residue_ne_zero (hsize : size ≤ maxPayload) (hset : p.weight ≠ 0) (h : p.Caught) :
    Checksum.residue p.polynomial ≠ 0 := by
  cases h with
  | few h =>
      by_cases htwo : p.weight = 2
      · refine Checksum.residue_ne_zero_of_two ?_ (p.length_polynomial_le hsize)
        rw [count_polynomial, htwo]
      · -- One bit and three bits are odd numbers of bits.
        refine Checksum.residue_ne_zero_of_odd ?_
        rw [count_polynomial]
        omega
  | odd h =>
      refine Checksum.residue_ne_zero_of_odd ?_
      rw [count_polynomial, h]
  | byte before behind b h =>
      -- All bits of one byte lie within eight.
      rcases polynomial_of_byte h with ⟨before, behind, hpolynomial⟩
      refine Checksum.residue_ne_zero_of_within hpolynomial ?_ ?_
      · rw [Byte.length_bits]
        decide
      · rw [count_polynomial]
        exact hset
  | burst before behind window h hwindow hlow hhigh =>
      -- The checksum was hit by none of it, so its bits only lengthen the tail.
      have hcrc : Checksum.bits [p.crcHigh, p.crcLow] = List.replicate 16 false := by
        rw [hlow, hhigh]
        decide
      have hpolynomial : p.polynomial =
          List.replicate before false ++ window ++ List.replicate (behind + 16) false := by
        rw [polynomial, Checksum.bits_append, h, hcrc, List.append_assoc,
          List.replicate_append_replicate]
      refine Checksum.residue_ne_zero_of_within hpolynomial hwindow ?_
      rw [count_polynomial]
      exact hset

/-- The parts of a frame with the bits flipped. -/
def onto (source destination : UInt8) (payload : List UInt8) (p : Flips payload.length) : Form where
  source := source ^^^ p.source
  destination := destination ^^^ p.destination
  length := Varuint.encode payload.length.toUInt32
  payload := Byte.flip payload p.payload
  crcLow := (Checksum.crc16 (Frame.covered source destination payload)).toUInt8 ^^^ p.crcLow
  crcHigh :=
    (Checksum.crc16 (Frame.covered source destination payload) >>> 8).toUInt8 ^^^ p.crcHigh

variable {source destination : UInt8} {payload : List UInt8} {p : Flips payload.length}

theorem length_covered_eq (p : Flips payload.length) :
    p.covered.length = (Frame.covered source destination payload).length := by
  rw [length_covered, Frame.covered, List.length_append, List.length_append, List.length_append,
    Varuint.length_encode]
  rfl

theorem body_onto (p : Flips payload.length) :
    (onto source destination payload p).body =
      Byte.flip (Frame.covered source destination payload) p.covered := by
  have hclear : List.replicate (Varuint.size payload.length.toUInt32) 0 =
      List.replicate (Varuint.encode payload.length.toUInt32).length (0 : UInt8) := by
    rw [Varuint.length_encode]
  have hlength : [0, 0, p.source, p.destination].length =
      (Byte.le16 magic ++ [source, destination]).length := rfl
  have hheader : Byte.flip (Byte.le16 magic ++ [source, destination])
      [0, 0, p.source, p.destination] =
        [0x54, 0xab, source ^^^ p.source, destination ^^^ p.destination] := by
    simp only [Byte.le16, Byte.flip, List.cons_append, List.nil_append, List.zipWith_cons_cons,
      List.zipWith_nil_left, UInt8.xor_zero]
    rfl
  rw [Frame.covered, covered, hclear, List.append_assoc _ (Varuint.encode _),
    List.append_assoc _ (List.replicate _ _), Byte.flip_append hlength,
    Byte.flip_append (List.length_replicate ..), hheader, Byte.flip_clear]
  rfl

theorem bytes_onto (p : Flips payload.length) :
    (onto source destination payload p).bytes =
      Byte.flip (layout source destination payload) p.bytes := by
  have happend : Byte.flip (layout source destination payload) p.bytes =
      Byte.flip (Frame.covered source destination payload) p.covered ++
        Byte.flip (Byte.le16 (Checksum.crc16 (Frame.covered source destination payload)))
          [p.crcLow, p.crcHigh] :=
    Byte.flip_append p.length_covered_eq _ _
  rw [Form.bytes, body_onto, happend]
  rfl

theorem crc_onto (p : Flips payload.length) :
    (onto source destination payload p).crc =
      Checksum.crc16 (Frame.covered source destination payload) ^^^
        Byte.ofLe16 p.crcLow p.crcHigh := by
  rw [Form.crc, onto, Byte.ofLe16_xor, Byte.ofLe16_le16]

/-- The checksum that came with the frame has the bits flipped, and the one it
    should have come with differs by what the pattern makes of it. So the two
    are equal just if the generator divides the pattern. -/
theorem crc_eq_computed_iff (p : Flips payload.length) :
    (onto source destination payload p).crc = (onto source destination payload p).computed ↔
      Checksum.residue p.polynomial = 0 := by
  rw [crc_onto, Form.computed, body_onto, Checksum.crc16_flip p.length_covered_eq,
    UInt16.xor_right_inj, residue_polynomial, UInt16.xor_eq_zero_iff]
  exact eq_comm

/-- A frame with flipped bits is still there as a whole. -/
theorem accepted_onto {limits : Limits} (p : Flips payload.length)
    (hpayload : payload.length ≤ maxPayload) (hlimit : payload.length ≤ limits.maxPayload) :
    (onto source destination payload p).Accepted limits := by
  -- The length is that of any frame with a payload of this size.
  have hpasses : Passes limits { source := 0, destination := 0, payload := payload } :=
    ⟨⟨UInt8.zero_le, hpayload, UInt8.zero_le⟩, hlimit⟩
  have haccepted := accepted_form hpasses
  exact ⟨haccepted.accepts,
    haccepted.announced.trans (Byte.length_flip p.length_payload).symm⟩

end Flips

/-- Only a payload that is not too long has bytes as a frame. -/
theorem encodeRaw_ok {source destination : UInt8} {payload frame : List UInt8}
    (h : encodeRaw source destination payload = .ok frame) :
    payload.length ≤ maxPayload ∧ frame = layout source destination payload := by
  rw [encodeRaw] at h
  by_cases hpayload : payload.length > maxPayload
  · rw [if_pos hpayload] at h
    exact absurd h (by simp only [reduceCtorEq, not_false_eq_true])
  · rw [if_neg hpayload] at h
    by_cases hdestination : destination > broadcast
    · rw [if_pos hdestination] at h
      exact absurd h (by simp only [reduceCtorEq, not_false_eq_true])
    · rw [if_neg hdestination, Except.ok.injEq] at h
      exact ⟨Nat.not_lt.mp hpayload, h.symm⟩

/-- A frame with flipped bits is taken as a whole, whatever follows it. Where
    the checksum is enforced it is refused, and where it is ignored the
    addresses and the payload are delivered as they arrived, and marked. -/
theorem decode_flipped {source destination : UInt8} {payload frame : List UInt8}
    (hframe : encodeRaw source destination payload = .ok frame)
    (p : Flips payload.length) (hset : p.weight ≠ 0) (hcaught : p.Caught)
    {most : Nat} (hlimit : payload.length ≤ most) (rest : List UInt8) :
    ∃ computed received : UInt16, computed ≠ received ∧
      computed = Checksum.crc16 (Byte.flip (covered source destination payload) p.covered) ∧
      received = Checksum.crc16 (covered source destination payload) ^^^
        Byte.ofLe16 p.crcLow p.crcHigh ∧
      decode { maxPayload := most, crcPolicy := .enforce } (Byte.flip frame p.bytes ++ rest) =
        (.error (.crcMismatch computed received), rest) ∧
      decode { maxPayload := most, crcPolicy := .ignore } (Byte.flip frame p.bytes ++ rest) =
        (.ok (some
          { source := (source ^^^ p.source) &&& broadcast
            destination := (destination ^^^ p.destination) &&& broadcast
            payload := Byte.flip payload p.payload
            requestReply := (source ^^^ p.source) &&& replyFlag != 0
            crc := received
            crcOk := false }), rest) := by
  rcases encodeRaw_ok hframe with ⟨hpayload, hlayout⟩
  -- The flipped frame has a form, and its checksum is not the one of its bytes.
  have hcrc : (p.onto source destination payload).crc ≠
      (p.onto source destination payload).computed := by
    rw [Ne, Flips.crc_eq_computed_iff]
    exact p.residue_ne_zero hpayload hset hcaught
  refine ⟨(p.onto source destination payload).computed, (p.onto source destination payload).crc,
    hcrc.symm, ?_, p.crc_onto, ?_, ?_⟩
  · rw [Form.computed, Flips.body_onto]
  · rw [hlayout, ← Flips.bytes_onto, decode_form (p.accepted_onto hpayload hlimit), Form.verdict]
    simp only [if_neg hcrc]
    rfl
  · rw [hlayout, ← Flips.bytes_onto, decode_form (p.accepted_onto hpayload hlimit), Form.verdict]
    simp only [Form.frame, Received.ofParts, beq_eq_false_iff_ne.mpr hcrc]
    rfl

/-- Two bits, one of the payload and one of the checksum. -/
theorem decode_flipped_two_bits :
    let payload : List UInt8 := [0x40, 0x01, 0x04, 0x74, 0x65, 0x73, 0x74]
    let frame := layout 0x00 0x05 payload
    let p : Flips payload.length := ⟨0, 0, [0, 0, 0, 0x20, 0, 0, 0], 0, 0x80, rfl⟩
    ∃ computed received : UInt16, computed ≠ received ∧
      computed = Checksum.crc16 (Byte.flip (covered 0x00 0x05 payload) p.covered) ∧
      received = Checksum.crc16 (covered 0x00 0x05 payload) ^^^
        Byte.ofLe16 p.crcLow p.crcHigh ∧
      decode { crcPolicy := .enforce } (Byte.flip frame p.bytes ++ [0x54]) =
        (.error (.crcMismatch computed received), [0x54]) ∧
      decode { crcPolicy := .ignore } (Byte.flip frame p.bytes ++ [0x54]) =
        (.ok (some
          { source := 0x00
            destination := 0x05
            payload := [0x40, 0x01, 0x04, 0x54, 0x65, 0x73, 0x74]
            requestReply := false
            crc := received
            crcOk := false }), [0x54]) := by
  intro payload frame p
  have hframe : encodeRaw 0x00 0x05 payload = .ok frame := rfl
  have hweight : p.weight = 2 := by decide +kernel
  have hset : p.weight ≠ 0 := by rw [hweight]; decide
  have hcaught : p.Caught := .few (by rw [hweight]; decide)
  have hlimit : payload.length ≤ 255 := by decide
  rcases decode_flipped hframe p hset hcaught hlimit [0x54] with
    ⟨computed, received, hne, hcomputed, hreceived, henforce, hignore⟩
  refine ⟨computed, received, hne, hcomputed, hreceived, henforce, hignore.trans ?_⟩
  -- What the reader takes from the flipped frame is computed field by field.
  have hpayload : Byte.flip payload p.payload = [0x40, 0x01, 0x04, 0x54, 0x65, 0x73, 0x74] := by
    decide
  have hsource : (0x00 ^^^ p.source) &&& broadcast = 0x00 := by decide
  have hflag : ((0x00 ^^^ p.source) &&& replyFlag != 0) = false := by decide
  have hdestination : (0x05 ^^^ p.destination) &&& broadcast = 0x05 := by decide
  rw [hpayload, hsource, hflag, hdestination]

end Frame

end Multidrop
