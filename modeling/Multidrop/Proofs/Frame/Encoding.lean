import Multidrop.Link
import Multidrop.Proofs.Varuint

/-!
# Frames That Are Fit To Be Sent

A frame is fit to be sent if both its addresses have seven bits and its
payload is no longer than a frame may carry. Those are the frames that have an
encoding, and a link queues exactly them. Written behind what a buffer holds a
frame has the same bytes as on its own.

## Main definitions

* `Fits`: A frame is fit to be sent.
* `bytes`: The bytes of a frame that is.
* `encoding`: The bytes a frame is queued with, if it is queued.

## Theorems

* `encode_of_fits`, `encode_of_not_fits`: Which frames have an encoding.
* `length_bytes`: How many bytes a frame takes.
* `appendTo_eq`: A frame behind the bytes of a buffer.
* `queueFrame_ok`, `queueFrame_error`: What queueing a frame comes to.
-/

namespace Multidrop

namespace Frame

/-- A frame whose addresses have seven bits, and whose payload is not too
    long. -/
def Fits (f : Frame) : Prop :=
  f.source ≤ broadcast ∧ f.payload.length ≤ maxPayload ∧ f.destination ≤ broadcast

instance (f : Frame) : Decidable f.Fits :=
  inferInstanceAs (Decidable (_ ∧ _ ∧ _))

/-- The bytes of a frame that is fit to be sent. -/
def bytes (f : Frame) : List UInt8 :=
  layout f.sourceByte f.destination f.payload

/-- The bytes a frame is queued with. One that is refused has none. -/
def encoding (f : Frame) : List UInt8 :=
  match f.encode with
  | .ok bytes => bytes
  | .error _ => []

theorem encode_of_fits {f : Frame} (h : f.Fits) : f.encode = .ok f.bytes := by
  rcases h with ⟨hsource, hpayload, hdestination⟩
  rw [encode, if_neg (UInt8.not_lt.mpr hsource), encodeRaw, if_neg (Nat.not_lt.mpr hpayload),
    if_neg (UInt8.not_lt.mpr hdestination), bytes]

theorem encode_of_not_fits {f : Frame} (h : ¬ f.Fits) : ∃ e, f.encode = .error e := by
  rw [encode]
  split
  · exact ⟨_, rfl⟩
  · rename_i hsource
    rw [encodeRaw]
    split
    · exact ⟨_, rfl⟩
    · rename_i hpayload
      split
      · exact ⟨_, rfl⟩
      · rename_i hdestination
        exact absurd ⟨UInt8.not_lt.mp hsource, Nat.not_lt.mp hpayload,
          UInt8.not_lt.mp hdestination⟩ h

/-- A payload that is too long is found out before the address of the receiver
    is looked at. -/
theorem encode_of_long {f : Frame} (hsource : f.source ≤ broadcast)
    (hlong : maxPayload < f.payload.length) :
    f.encode = .error (.payloadTooLarge f.payload.length maxPayload) := by
  rw [encode, if_neg (UInt8.not_lt.mpr hsource), encodeRaw, if_pos hlong]

theorem encoding_of_fits {f : Frame} (h : f.Fits) : f.encoding = f.bytes := by
  rw [encoding, encode_of_fits h]

/-- How many bytes a frame takes. -/
theorem length_bytes (f : Frame) : f.bytes.length = wireSize f.payload := by
  have hlength := Varuint.length_encode f.payload.length.toUInt32
  simp only [bytes, layout, covered, List.length_append, Byte.length_le16, hlength,
    List.length_cons, List.length_nil, wireSize, headerSize, crcSize]

/-- What is put behind the bytes of a buffer part by part is the bytes of the
    frame, since the checksum leaves out what was there before. -/
theorem appendRaw_eq (sourceByte destination : UInt8) (payload buffer : List UInt8) :
    appendRaw sourceByte destination payload buffer =
      match encodeRaw sourceByte destination payload with
      | .ok bytes => (buffer ++ bytes, .ok ())
      | .error e => (buffer, .error e) := by
  rw [appendRaw, encodeRaw]
  by_cases hpayload : payload.length > maxPayload
  · rw [if_pos hpayload, if_pos hpayload]
  · rw [if_neg hpayload, if_neg hpayload]
    by_cases hdestination : destination > broadcast
    · rw [if_pos hdestination, if_pos hdestination]
    · rw [if_neg hdestination, if_neg hdestination]
      simp only [layout, covered, List.append_assoc, List.drop_left]

/-- A frame is put behind the bytes of a buffer just if it has an encoding. -/
theorem appendTo_eq (f : Frame) (buffer : List UInt8) :
    f.appendTo buffer =
      match f.encode with
      | .ok bytes => (buffer ++ bytes, .ok ())
      | .error e => (buffer, .error e) := by
  rw [appendTo, encode]
  by_cases hsource : f.source > broadcast
  · rw [if_pos hsource, if_pos hsource]
  · rw [if_neg hsource, if_neg hsource, appendRaw_eq]

end Frame

namespace Link

/-- A frame that is queued comes behind what is queued already, with all its
    bytes, and is counted. -/
theorem queueFrame_ok {f : Frame} {l l' : Link} (h : l.queueFrame f = .ok l') :
    l' = { l with
      outbound := l.outbound ++ f.encoding
      statistics := { l.statistics with framesSent := l.statistics.framesSent + 1 } } := by
  unfold queueFrame at h
  split at h
  · simp only [reduceCtorEq] at h
  · rename_i bytes hencode
    rw [Except.ok.injEq] at h
    rw [← h, Frame.encoding, hencode]
    rfl

theorem queueFrame_error {f : Frame} {l : Link} {e : Frame.Error} :
    l.queueFrame f = .error e ↔ f.encode = .error e := by
  unfold queueFrame
  split
  · rename_i e' hencode
    rw [hencode, Except.error.injEq, Except.error.injEq]
  · rename_i bytes hencode
    simp only [hencode, reduceCtorEq]

end Link

end Multidrop
