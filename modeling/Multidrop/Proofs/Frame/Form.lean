import Multidrop.Frame.Decode
import Multidrop.Proofs.Varuint.Form

/-!
# The Form of Frames

What a reader makes of the front of a buffer is settled by what stands there.
Bytes have the form of a frame if they start with the magic and two addresses,
spell out a length that is accepted, and go on with as many bytes as that and
two more. Those are taken, whether or not their checksum matches. Bytes that
could still become a frame are left until more of them are there. All others
are refused, for the first thing about them that is wrong.

`decodes` says that a buffer is always one of the three, and the equations
beside it what a reader makes of each. All else that is known about readers is
derived from these.

## Main definitions

* `Limits.Accepts`: Bytes that spell out a length that is accepted.
* `Form`: The parts of bytes that have the form of a frame.
* `Form.Accepted`: The parts fit each other and the limits.
* `Form.verdict`: What is said to a frame that is there whole.
* `Incomplete`: Bytes that could still become a frame.
* `Refused`: Bytes that cannot, and what is wrong with them.

## Theorems

* `decode_form`, `decode_incomplete`, `decode_refused`: What a reader makes of
  bytes of each kind.
* `decodes`: There are no other bytes.
-/

namespace Multidrop

namespace Byte

theorem toNat_ofLe16 (low high : UInt8) :
    (ofLe16 low high).toNat = low.toNat + 256 * high.toNat := by
  have hlow := UInt8.toNat_lt low
  have hhigh := UInt8.toNat_lt high
  have hshift : high.toNat <<< 8 % 2 ^ 16 = high.toNat <<< 8 :=
    Nat.mod_eq_of_lt (by rw [Nat.shiftLeft_eq]; omega)
  rw [ofLe16, UInt16.toNat_or, UInt16.toNat_shiftLeft, UInt8.toNat_toUInt16,
    UInt8.toNat_toUInt16]
  simp only [UInt16.toNat_ofNat, Nat.reducePow, Nat.reduceMod] at hshift ⊢
  -- The two bytes have no bits in common, so joining them is adding them.
  rw [hshift, Nat.or_comm, ← Nat.shiftLeft_add_eq_or_of_lt hlow, Nat.shiftLeft_eq]
  omega

/-- A word has one low and one high byte. -/
theorem ofLe16_inj {low high low' high' : UInt8} :
    ofLe16 low high = ofLe16 low' high' ↔ low = low' ∧ high = high' := by
  have hlow := UInt8.toNat_lt low
  have hlow' := UInt8.toNat_lt low'
  rw [← UInt16.toNat_inj, toNat_ofLe16, toNat_ofLe16, ← UInt8.toNat_inj, ← UInt8.toNat_inj]
  omega

/-- A word is read back from its bytes. -/
theorem ofLe16_le16 (w : UInt16) : ofLe16 w.toUInt8 (w >>> 8).toUInt8 = w := by
  have hword := UInt16.toNat_lt w
  apply UInt16.toNat_inj.mp
  rw [toNat_ofLe16, UInt16.toNat_toUInt8, UInt16.toNat_toUInt8, UInt16.toNat_shiftRight]
  simp only [UInt16.toNat_ofNat, Nat.reducePow, Nat.reduceMod, Nat.shiftRight_eq_div_pow]
    at hword ⊢
  omega

end Byte

namespace Frame

/-- Bytes that spell out a length that is accepted. -/
structure Limits.Accepts (limits : Limits) (number : List UInt8) : Prop where
  closed : Varuint.Closed number
  short : number.length ≤ Varuint.maxSize
  range : Varuint.value number < UInt32.size
  limit : Varuint.value number ≤ limits.maxPayload

/-- The parts of bytes that have the form of a frame. The length is there as
    it is spelled out, which need not be as short as it could be. -/
@[ext]
structure Form where
  source : UInt8
  destination : UInt8
  length : List UInt8
  payload : List UInt8
  crcLow : UInt8
  crcHigh : UInt8
  deriving DecidableEq

namespace Form

/-- What the checksum covers. -/
def body (p : Form) : List UInt8 :=
  0x54 :: 0xab :: p.source :: p.destination :: (p.length ++ p.payload)

/-- The bytes that have these parts. -/
def bytes (p : Form) : List UInt8 :=
  p.body ++ [p.crcLow, p.crcHigh]

/-- The checksum that came with the frame. -/
def crc (p : Form) : UInt16 :=
  Byte.ofLe16 p.crcLow p.crcHigh

/-- The checksum the frame should have come with. -/
def computed (p : Form) : UInt16 :=
  Checksum.crc16 p.body

/-- The frame that is seen in the parts. -/
def frame (p : Form) : Received :=
  Received.ofParts p.source p.destination p.payload p.crc p.computed

/-- The parts fit each other and the limits. -/
structure Accepted (limits : Limits) (p : Form) : Prop where
  accepts : limits.Accepts p.length
  announced : Varuint.value p.length = p.payload.length

/-- What is said to a frame that is there whole. -/
def verdict (limits : Limits) (p : Form) : Except Error Received :=
  match limits.crcPolicy with
  | .ignore => .ok p.frame
  | .enforce => if p.crc = p.computed then .ok p.frame else .error (.crcMismatch p.computed p.crc)

/-- A frame that is there whole is delivered, or refused for its checksum. -/
theorem verdict_cases (limits : Limits) (p : Form) :
    p.verdict limits = .ok p.frame ∨
      p.verdict limits = .error (.crcMismatch p.computed p.crc) := by
  rw [verdict]
  cases limits.crcPolicy with
  | ignore => exact Or.inl rfl
  | enforce =>
      by_cases hcrc : p.crc = p.computed
      · exact Or.inl (if_pos hcrc)
      · exact Or.inr (if_neg hcrc)

theorem length_bytes (p : Form) :
    p.bytes.length = headerSize + p.length.length + p.payload.length + crcSize := by
  simp only [bytes, body, List.length_append, List.length_cons, List.length_nil, headerSize,
    crcSize]
  omega

theorem close_eq (limits : Limits) (p : Form) :
    close limits p.source p.destination p.payload p.body p.crc = p.verdict limits := by
  rw [close, verdict]
  cases limits.crcPolicy with
  | ignore =>
      rw [if_neg (by simp only [reduceCtorEq, and_false, not_false_eq_true])]
      rfl
  | enforce =>
      by_cases hcrc : p.crc = p.computed
      · rw [if_neg (fun hne => hne.1 hcrc), if_pos hcrc]
        rfl
      · rw [if_pos ⟨hcrc, rfl⟩, if_neg hcrc]
        rfl

end Form

/-- Bytes that could still become a frame that is accepted. -/
inductive Incomplete (limits : Limits) (buffer : List UInt8) : Prop where
  | header (h : buffer.length < headerSize)
  | length (source destination : UInt8) (number : List UInt8)
      (hbuffer : buffer = 0x54 :: 0xab :: source :: destination :: number)
      (h : Varuint.Open number) (hlength : number.length < Varuint.maxSize)
  | body (source destination : UInt8) (number rest : List UInt8)
      (hbuffer : buffer = 0x54 :: 0xab :: source :: destination :: (number ++ rest))
      (h : limits.Accepts number) (hrest : rest.length < Varuint.value number + crcSize)

/-- Bytes that cannot become a frame that is accepted, and what is wrong with
    them. -/
inductive Refused (limits : Limits) (buffer : List UInt8) : Error → Prop where
  | magic (m0 m1 source destination : UInt8) (rest : List UInt8)
      (hbuffer : buffer = m0 :: m1 :: source :: destination :: rest)
      (h : ¬ (m0 = 0x54 ∧ m1 = 0xab)) :
      Refused limits buffer (.invalidMagic (Byte.ofLe16 m0 m1))
  | endless (source destination : UInt8) (number rest : List UInt8)
      (hbuffer : buffer = 0x54 :: 0xab :: source :: destination :: (number ++ rest))
      (h : Varuint.Open number) (hlength : number.length = Varuint.maxSize) :
      Refused limits buffer (.varuint .overlong)
  | outOfRange (source destination : UInt8) (number rest : List UInt8)
      (hbuffer : buffer = 0x54 :: 0xab :: source :: destination :: (number ++ rest))
      (h : Varuint.Closed number) (hlength : number.length ≤ Varuint.maxSize)
      (hrange : UInt32.size ≤ Varuint.value number) :
      Refused limits buffer (.varuint (.outOfRange (UInt64.ofNat (Varuint.value number))))
  | oversized (source destination : UInt8) (number rest : List UInt8)
      (hbuffer : buffer = 0x54 :: 0xab :: source :: destination :: (number ++ rest))
      (h : Varuint.Closed number) (hlength : number.length ≤ Varuint.maxSize)
      (hrange : Varuint.value number < UInt32.size)
      (hlimit : limits.maxPayload < Varuint.value number) :
      Refused limits buffer (.payloadTooLarge (Varuint.value number) limits.maxPayload)

/-- What a buffer can begin with. -/
inductive Decodes (limits : Limits) (buffer : List UInt8) : Prop where
  | whole (p : Form) (rest : List UInt8) (hbuffer : buffer = p.bytes ++ rest)
      (h : p.Accepted limits)
  | incomplete (h : Incomplete limits buffer)
  | refused (e : Error) (h : Refused limits buffer e)

theorem checkMagic_ok : checkMagic 0x54 0xab = .ok () := by
  rw [checkMagic, if_pos (by decide)]

/-- Only one word is the magic. -/
theorem checkMagic_error {m0 m1 : UInt8} (h : ¬ (m0 = 0x54 ∧ m1 = 0xab)) :
    checkMagic m0 m1 = .error (.invalidMagic (Byte.ofLe16 m0 m1)) := by
  have hmagic : magic = Byte.ofLe16 0x54 0xab := by decide
  rw [checkMagic, hmagic, if_neg (fun heq => h (Byte.ofLe16_inj.mp heq))]

variable {limits : Limits} {buffer number rest : List UInt8}

/-- A length that is accepted is read. -/
theorem Limits.Accepts.read (h : limits.Accepts number) (rest : List UInt8) :
    Varuint.read (number ++ rest) =
      (.ok (some (UInt32.ofNat (Varuint.value number))), rest) := by
  rw [Varuint.read_closed h.closed h.short, Varuint.verdict, if_pos h.range]

/-- Bytes that could still become a frame are left. -/
theorem decode_incomplete (h : Incomplete limits buffer) :
    decode limits buffer = (.ok none, buffer) := by
  cases h with
  -- Too short for a header: the reader does not even look at the magic.
  | header h =>
      match buffer with
      | [] => rfl
      | [_] => rfl
      | [_, _] => rfl
      | [_, _, _] => rfl
      | _ :: _ :: _ :: _ :: more =>
          simp only [List.length_cons, headerSize] at h
          omega
  | length source destination number hbuffer h hlength =>
      rw [hbuffer, decode]
      simp only [checkMagic_ok, Varuint.read_open h hlength]
  -- The length is known, and so the split for the checksum finds too little.
  | body source destination number rest hbuffer h hrest =>
      rw [hbuffer, decode]
      simp only [checkMagic_ok, h.read, UInt32.toNat_ofNat_of_lt' h.range, gt_iff_lt,
        if_neg (Nat.not_lt.mpr h.limit)]
      split
      · rename_i c0 c1 left hdrop
        have hlength := congrArg List.length hdrop
        simp only [List.length_drop, List.length_cons, crcSize] at hlength hrest
        omega
      · rfl

/-- Bytes that cannot become a frame are left, and refused. -/
theorem decode_refused {e : Error} (h : Refused limits buffer e) :
    decode limits buffer = (.error e, buffer) := by
  cases h with
  | magic m0 m1 source destination rest hbuffer h =>
      rw [hbuffer, decode]
      simp only [checkMagic_error h]
  | endless source destination number rest hbuffer h hlength =>
      rw [hbuffer, decode]
      simp only [checkMagic_ok, Varuint.read_endless h hlength]
  | outOfRange source destination number rest hbuffer h hlength hrange =>
      rw [hbuffer, decode]
      simp only [checkMagic_ok, Varuint.read_closed h hlength, Varuint.verdict,
        if_neg (Nat.not_lt.mpr hrange)]
  | oversized source destination number rest hbuffer h hlength hrange hlimit =>
      rw [hbuffer, decode]
      simp only [checkMagic_ok, Varuint.read_closed h hlength, Varuint.verdict,
        if_pos hrange, UInt32.toNat_ofNat_of_lt' hrange, gt_iff_lt, if_pos hlimit]

/-- A frame that is there whole is taken, and what follows it is left. -/
theorem decode_form {p : Form} (h : p.Accepted limits) (rest : List UInt8) :
    decode limits (p.bytes ++ rest) = ((p.verdict limits).map some, rest) := by
  -- The checksum covers all but itself and what follows.
  have hbody : (p.bytes ++ rest).take ((p.bytes ++ rest).length - rest.length - crcSize) =
      p.body := by
    rw [Form.bytes, List.append_assoc]
    apply List.take_left'
    simp only [List.length_append, List.length_cons, List.length_nil, crcSize]
    omega
  have hsize : (UInt32.ofNat (Varuint.value p.length)).toNat = p.payload.length := by
    rw [UInt32.toNat_ofNat_of_lt' h.accepts.range, h.announced]
  have hlimit : ¬ p.payload.length > limits.maxPayload := by
    have hle := h.accepts.limit
    rw [h.announced] at hle
    exact Nat.not_lt.mpr hle
  have hbytes : p.bytes ++ rest = 0x54 :: 0xab :: p.source :: p.destination ::
      (p.length ++ (p.payload ++ p.crcLow :: p.crcHigh :: rest)) := by
    simp only [Form.bytes, Form.body, List.cons_append, List.append_assoc, List.nil_append]
  rw [← Form.close_eq, decode.eq_def]
  rw [hbytes] at hbody ⊢
  simp only [checkMagic_ok, h.accepts.read, hsize, if_neg hlimit, List.drop_left,
    List.take_left, hbody]
  rfl

/-- A header that is complete has four bytes. -/
theorem exists_header (h : ¬ buffer.length < headerSize) :
    ∃ m0 m1 source destination behind,
      buffer = m0 :: m1 :: source :: destination :: behind := by
  rw [headerSize] at h
  match buffer with
  | [] => exact absurd (show 0 < 4 by decide) h
  | [_] => exact absurd (show 1 < 4 by decide) h
  | [_, _] => exact absurd (show 2 < 4 by decide) h
  | [_, _, _] => exact absurd (show 3 < 4 by decide) h
  | m0 :: m1 :: source :: destination :: behind =>
      exact ⟨m0, m1, source, destination, behind, rfl⟩

/-- Where the payload and the checksum are complete behind a length that is
    accepted, a frame is there whole. -/
theorem exists_form (source destination : UInt8) (h : limits.Accepts number)
    (hrest : ¬ rest.length < Varuint.value number + crcSize) :
    ∃ p left, 0x54 :: 0xab :: source :: destination :: (number ++ rest) =
        Form.bytes p ++ left ∧ p.Accepted limits ∧
      left.length + (Varuint.value number + crcSize) = rest.length := by
  have hpayload : (rest.take (Varuint.value number)).length = Varuint.value number := by
    rw [List.length_take]
    omega
  have hdrop : 2 ≤ (rest.drop (Varuint.value number)).length := by
    rw [List.length_drop]
    rw [crcSize] at hrest
    omega
  rcases hbehind : rest.drop (Varuint.value number) with _ | ⟨c0, _ | ⟨c1, left⟩⟩
  · -- There are two bytes left for the checksum, so neither shorter case can be.
    rw [hbehind, List.length_nil] at hdrop
    omega
  · rw [hbehind, List.length_singleton] at hdrop
    omega
  · refine ⟨⟨source, destination, number, rest.take (Varuint.value number), c0, c1⟩, left,
      ?_, ⟨h, hpayload.symm⟩, ?_⟩
    · have hsplit := List.take_append_drop (Varuint.value number) rest
      rw [hbehind] at hsplit
      simp only [Form.bytes, Form.body, List.cons_append, List.append_assoc, List.nil_append,
        hsplit]
    · have hlength := congrArg List.length hbehind
      rw [List.length_drop, List.length_cons, List.length_cons] at hlength
      rw [crcSize] at hrest ⊢
      omega

/-- A buffer is always one of the three. The cases are those a reader tells
    apart, in its order. -/
theorem decodes (limits : Limits) (buffer : List UInt8) : Decodes limits buffer := by
  by_cases hshort : buffer.length < headerSize
  · exact .incomplete (.header hshort)
  rcases exists_header hshort with ⟨m0, m1, source, destination, behind, hbuffer⟩
  rw [hbuffer]
  -- In the order in which the reader looks: magic, length, limit and then the body.
  by_cases hmagic : m0 = 0x54 ∧ m1 = 0xab
  · rcases hmagic with ⟨hm0, hm1⟩
    rw [hm0, hm1]
    cases Varuint.form Varuint.maxSize behind with
    | opened h hlength => exact .incomplete (.length source destination behind rfl h hlength)
    | endless number rest h hlength hbytes =>
        rw [hbytes]
        exact .refused _ (.endless source destination number rest rfl h hlength)
    | closed number rest h hlength hbytes =>
        rw [hbytes]
        by_cases hrange : Varuint.value number < UInt32.size
        · by_cases hlimit : limits.maxPayload < Varuint.value number
          · exact .refused _
              (.oversized source destination number rest rfl h hlength hrange hlimit)
          · have haccepts : limits.Accepts number :=
              ⟨h, hlength, hrange, Nat.not_lt.mp hlimit⟩
            by_cases hrest : rest.length < Varuint.value number + crcSize
            · exact .incomplete (.body source destination number rest rfl haccepts hrest)
            · rcases exists_form source destination haccepts hrest with
                ⟨p, left, hform, haccepted, _⟩
              exact .whole p left hform haccepted
        · exact .refused _ (.outOfRange source destination number rest rfl h hlength
            (Nat.not_lt.mp hrange))
  · exact .refused _ (.magic m0 m1 source destination behind rfl hmagic)

end Frame

end Multidrop
