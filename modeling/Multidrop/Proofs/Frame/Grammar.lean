import Multidrop.Proofs.Frame.Decode

/-!
# The Grammar of Frames

A reader takes exactly the bytes that have the form of a frame, waits for more
exactly behind bytes that could still become one, and refuses all others. How
many bytes it takes does not depend on what it does about checksums.

Some bytes that a reader takes are not those of any frame that is fit to be
sent: the length may be spelled out in more bytes than it needs, a device may
set the top bit of the receiver's address, a reader may accept more than a
frame may carry, and a checksum that does not match may be of no concern. That
is all there is to tell them by. A frame that is seen in bytes without any of
these has exactly those bytes when it is written again.

## Theorems

* `Form.bytes_inj`: Parts that are as long have the same bytes just if they
  are the same.
* `Form.written_iff`: Which bytes are written again as they were.
* `reader_grammar`: What a reader makes of any buffer.
-/

namespace Multidrop

namespace Frame

/-- An address has no bits but its own just if it has seven bits. -/
theorem and_broadcast_iff (address : UInt8) :
    address &&& broadcast = address ↔ address ≤ broadcast := by
  constructor
  · intro h
    rw [← h, UInt8.le_iff_toNat_le, UInt8.toNat_and]
    exact Nat.and_le_right
  · intro h
    exact (bits_of_le h).1

theorem flag_bits : ∀ n < 256,
    (if (UInt8.ofNat n &&& replyFlag != 0) = true
      then (UInt8.ofNat n &&& broadcast) ||| replyFlag
      else UInt8.ofNat n &&& broadcast) = UInt8.ofNat n := by
  decide +kernel

/-- The source byte of a frame that was seen is the one it was seen in. -/
theorem sourceByte_ofParts (source destination : UInt8) (payload : List UInt8)
    (crc computed : UInt16) :
    (Received.ofParts source destination payload crc computed).sourceByte = source := by
  have hbits := flag_bits source.toNat (UInt8.toNat_lt source)
  rw [UInt8.ofNat_toNat] at hbits
  exact hbits

namespace Form

variable {limits : Limits} {p q : Form}

/-- Parts with payloads of one length have the same bytes just if they are the
    same, since what is between the header and the payload is then the length
    as it is spelled out. -/
theorem bytes_inj (h : p.payload.length = q.payload.length) : p.bytes = q.bytes ↔ p = q := by
  constructor
  · intro hbytes
    simp only [bytes, body, List.cons_append, List.cons.injEq, List.append_assoc, true_and]
      at hbytes
    rcases hbytes with ⟨hsource, hdestination, hbehind⟩
    have hend : (p.payload ++ [p.crcLow, p.crcHigh]).length =
        (q.payload ++ [q.crcLow, q.crcHigh]).length := by
      rw [List.length_append, List.length_append, h]
      rfl
    rcases List.append_inj' hbehind hend with ⟨hlength, hrest⟩
    rcases List.append_inj hrest h with ⟨hpayload, hcrc⟩
    simp only [List.cons.injEq, and_true] at hcrc
    rcases p with ⟨source, destination, length, payload, crcLow, crcHigh⟩
    simp only at hsource hdestination hlength hpayload hcrc
    rw [hsource, hdestination, hlength, hpayload, hcrc.1, hcrc.2]
  · intro heq
    rw [heq]

/-- The frame that is seen in some parts has these parts just if its length
    is spelled out as briefly as it can be, the receiver's address has seven
    bits and the checksum matches. -/
theorem form_frame_iff (h : p.Accepted limits) :
    p.frame.form = p ↔
      Varuint.Minimal p.length ∧ p.destination ≤ broadcast ∧ p.crc = p.computed := by
  have hsource : p.frame.form.source = p.source := sourceByte_ofParts _ _ _ _ _
  -- What is written again announces the length in the shortest spelling.
  have hlength : p.frame.form.length =
      Varuint.encode (UInt32.ofNat (Varuint.value p.length)) := by
    rw [h.announced]
    rfl
  have hminimal := Varuint.encode_value_iff h.accepts.closed h.accepts.range
  have hchecksum := crc_form p.frame.toFrame
  constructor
  · intro hform
    have hcomputed := computed_form p.frame.toFrame
    rw [hform] at hlength hchecksum hcomputed
    have hdestination : p.frame.form.destination = p.destination := by rw [hform]
    exact ⟨hminimal.mp hlength.symm, (and_broadcast_iff p.destination).mp hdestination,
      hchecksum.trans hcomputed.symm⟩
  · intro hparts
    rcases hparts with ⟨hshort, haddress, hcrc⟩
    have hdestination : p.frame.form.destination = p.destination :=
      (and_broadcast_iff p.destination).mpr haddress
    rw [hminimal.mpr hshort] at hlength
    have hbody : p.frame.form.body = p.body := by
      rw [body, body, hsource, hdestination, hlength]
      rfl
    -- With the same bytes before it the checksum is the same as well.
    have hsame : p.frame.checksum = p.crc := by
      rw [hcrc, computed, ← hbody, ← computed_form, computed]
    rcases Byte.ofLe16_inj.mp (Byte.ofLe16_le16 p.crc) with ⟨hlow, hhigh⟩
    apply Form.ext hsource hdestination hlength rfl
    · rw [← hlow, ← hsame]
      rfl
    · rw [← hhigh, ← hsame]
      rfl

/-- A frame that is seen in some parts is written with their bytes just if
    its length is spelled out as briefly as it can be, the receiver's address
    has seven bits, the payload is no longer than a frame may carry and the
    checksum matches. -/
theorem written_iff (h : p.Accepted limits) (before : List UInt8) :
    appendRaw p.frame.sourceByte p.frame.destination p.frame.payload before =
        (before ++ p.bytes, .ok ()) ↔
      Varuint.Minimal p.length ∧ p.destination ≤ broadcast ∧
        p.payload.length ≤ maxPayload ∧ p.crc = p.computed := by
  -- The reader masks the destination, so a frame it delivers is always addressed.
  have hdestination : ¬ p.frame.destination > broadcast := by
    have hle : p.destination &&& broadcast ≤ broadcast := by
      rw [UInt8.le_iff_toNat_le, UInt8.toNat_and]
      exact Nat.and_le_right
    exact UInt8.not_lt.mpr hle
  have hbytes : p.frame.form.bytes = p.bytes ↔ p.frame.form = p := bytes_inj rfl
  rw [bytes_form, form_frame_iff h] at hbytes
  rw [appendRaw_eq, encodeRaw, if_neg hdestination]
  by_cases hpayload : p.frame.payload.length > maxPayload
  · rw [if_pos hpayload]
    simp only [Prod.mk.injEq, reduceCtorEq, and_false, false_iff, not_and]
    intro _ _ hle
    exact absurd hpayload (Nat.not_lt.mpr hle)
  · rw [if_neg hpayload]
    simp only [Prod.mk.injEq, List.append_cancel_left_eq, and_true]
    refine hbytes.trans ?_
    have hle : p.payload.length ≤ maxPayload := Nat.not_lt.mp hpayload
    simp only [hle, true_and]

/-- The only frame that is delivered is the one that is seen. -/
theorem eq_frame_of_verdict {f : Received} (h : p.verdict limits = .ok f) : f = p.frame := by
  rcases p.verdict_cases limits with hverdict | hverdict
  · rw [hverdict] at h
    exact (Except.ok.inj h).symm
  · rw [hverdict] at h
    simp only [reduceCtorEq] at h

end Form

variable {limits : Limits} {buffer : List UInt8}

/-- A reader takes a number of bytes just if that many have the form of a
    frame. -/
theorem decode_count_iff {count : Nat} :
    (0 < count ∧ count ≤ buffer.length ∧ (decode limits buffer).2 = buffer.drop count) ↔
      ∃ p rest, Form.Accepted limits p ∧ buffer = p.bytes ++ rest ∧
        count = headerSize + p.length.length + p.payload.length + crcSize := by
  constructor
  · rintro ⟨hpos, hle, hleft⟩
    have hlength := congrArg List.length hleft
    rw [List.length_drop] at hlength
    -- Only a whole frame takes bytes; the other two leave the buffer as it is.
    cases decodes limits buffer with
    | whole p rest hbuffer h =>
        refine ⟨p, rest, h, hbuffer, ?_⟩
        have hbytes := congrArg List.length hbuffer
        rw [List.length_append] at hbytes
        rw [hbuffer, decode_form h, ← hbuffer] at hlength
        simp only at hlength
        rw [← p.length_bytes]
        omega
    | incomplete h =>
        rw [decode_incomplete h] at hlength
        simp only at hlength
        omega
    | refused e h =>
        rw [decode_refused h] at hlength
        simp only at hlength
        omega
  · rintro ⟨p, rest, h, hbuffer, hcount⟩
    rw [← p.length_bytes] at hcount
    have hbytes := p.length_bytes
    rw [headerSize] at hbytes
    rw [hbuffer, hcount, decode_form h, List.length_append, List.drop_left]
    exact ⟨by omega, by omega, rfl⟩

/-- A reader waits just if the buffer could still become a frame. -/
theorem decode_none_iff :
    decode limits buffer = (.ok none, buffer) ↔ Incomplete limits buffer := by
  constructor
  · intro hdecode
    cases decodes limits buffer with
    | whole p rest hbuffer h =>
        rw [hbuffer] at hdecode
        exact absurd (congrArg Prod.fst hdecode) (h.decode_ne_none rest)
    | incomplete h => exact h
    | refused e h =>
        rw [decode_refused h] at hdecode
        simp only [Prod.mk.injEq, reduceCtorEq, false_and] at hdecode
  · exact decode_incomplete

/-- A reader refuses what is there just if it cannot become a frame. -/
theorem decode_error_iff {e : Error} :
    decode limits buffer = (.error e, buffer) ↔ Refused limits buffer e := by
  constructor
  · intro hdecode
    have hiff := (taken_iff limits buffer).1
    rw [hdecode] at hiff
    have hnot : taken (.error e) = false :=
      Bool.eq_false_iff.mpr fun htaken => Nat.lt_irrefl _ (hiff.mp htaken)
    exact refused_of_decode (by rw [hdecode]) hnot
  · exact decode_refused

/-- What a reader makes of any buffer. It takes a number of bytes just if the
    buffer starts with that many bytes that have the form of a frame, and it
    then gives its verdict on that frame and leaves what follows it. It waits
    just if the buffer could still become a frame, and refuses just what
    cannot, for what is wrong with it; either leaves the buffer as it was, and
    there are no other buffers. A frame that is delivered is written again
    with the bytes it was seen in just if these are canonical. -/
theorem reader_grammar (limits : Limits) (buffer : List UInt8) :
    (∀ count, (0 < count ∧ count ≤ buffer.length ∧
        (decode limits buffer).2 = buffer.drop count) ↔
      ∃ p rest, Form.Accepted limits p ∧ buffer = p.bytes ++ rest ∧
        count = headerSize + p.length.length + p.payload.length + crcSize) ∧
    (∀ p rest, Form.Accepted limits p → buffer = p.bytes ++ rest →
      decode limits buffer = ((p.verdict limits).map some, rest) ∧
      ∀ f, p.verdict limits = .ok f → ∀ before,
        (appendRaw f.sourceByte f.destination f.payload before =
            (before ++ p.bytes, .ok ()) ↔
          Varuint.Minimal p.length ∧ p.destination ≤ broadcast ∧
            p.payload.length ≤ maxPayload ∧ p.crc = p.computed)) ∧
    (decode limits buffer = (.ok none, buffer) ↔ Incomplete limits buffer) ∧
    (∀ e, decode limits buffer = (.error e, buffer) ↔ Refused limits buffer e) ∧
    ((∃ p rest, Form.Accepted limits p ∧ buffer = p.bytes ++ rest) ∨
      Incomplete limits buffer ∨ ∃ e, Refused limits buffer e) := by
  refine ⟨fun count => decode_count_iff, ?_, decode_none_iff, fun e => decode_error_iff, ?_⟩
  · intro p rest haccepted hbuffer
    refine ⟨by rw [hbuffer, decode_form haccepted], ?_⟩
    intro f hverdict before
    rw [p.eq_frame_of_verdict hverdict]
    exact p.written_iff haccepted before
  · cases decodes limits buffer with
    | whole p rest hbuffer h => exact Or.inl ⟨p, rest, h, hbuffer⟩
    | incomplete h => exact Or.inr (Or.inl h)
    | refused e h => exact Or.inr (Or.inr ⟨e, h⟩)

end Frame

end Multidrop
