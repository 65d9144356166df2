import Multidrop.Proofs.Varuint
import Multidrop.Subframe.Stream

/-!
# Stream Sub-frames That Are Read Back

The data of a stream sub-frame comes out of a payload as it went in. `carried`
is the data a payload holds for one channel in one direction: that of its
first sub-frame, if it is one of that kind, and nothing otherwise.

## Main definitions

* `carried`: The stream bytes of a payload, for one channel.

## Theorems

* `parse_payload`: A sub-frame that was written is read.
* `carried_payload`, `carried_payload_of_ne`: The data for a channel is what
  was written for it.
* `carried_of_first`: A payload that opens with another identifier carries
  nothing.
* `length_payload_le`: Less data makes a shorter payload.
-/

namespace Multidrop

namespace Stream

/-- The stream bytes of a payload in one direction, for one channel. -/
def carried (id channel : UInt32) (payload : List UInt8) : List UInt8 :=
  match parse payload with
  | .ok (some chunk) => if chunk.id = id ∧ chunk.channel = channel then chunk.data else []
  | _ => []

theorem toNat_length {data : List UInt8} (h : data.length < UInt32.size) :
    data.length.toUInt32.toNat = data.length := by
  rw [Nat.toUInt32, UInt32.toNat_ofNat_of_lt' h]

/-- A sub-frame that was written is read, whatever follows it. -/
theorem parse_payload (id channel : UInt32) {data : List UInt8} (h : data.length < UInt32.size) :
    parse (payload id channel data) = .ok (some { id, channel, data }) := by
  simp only [parse, payload, List.append_assoc, Varuint.read_encode, toNat_length h,
    List.take_length]

/-- The data for a channel is what was written for it. -/
theorem carried_payload (id channel : UInt32) {data : List UInt8} (h : data.length < UInt32.size) :
    carried id channel (payload id channel data) = data := by
  rw [carried, parse_payload id channel h]
  simp only [and_self, if_true]

/-- What was written for another channel is not for this one. -/
theorem carried_payload_of_ne (id : UInt32) {channel other : UInt32} {data : List UInt8}
    (hother : other ≠ channel) (h : data.length < UInt32.size) :
    carried id channel (payload id other data) = [] := by
  rw [carried, parse_payload id other h]
  exact if_neg fun hc => hother hc.2

/-- A payload that opens with another identifier carries nothing. -/
theorem carried_of_first {id channel : UInt32} {first : UInt32} {bytes rest : List UInt8}
    (hread : Varuint.read bytes = (.ok (some first), rest)) (hfirst : first ≠ id) :
    carried id channel bytes = [] := by
  unfold carried
  split
  · rename_i chunk hparse
    unfold parse at hparse
    rw [hread] at hparse
    simp only at hparse
    split at hparse
    · simp only [reduceCtorEq] at hparse
    · split at hparse
      · simp only [reduceCtorEq] at hparse
      · split at hparse
        · -- All three numbers were read, and the first of them is another id.
          rename_i id' channel' length hid hchannel hlength
          rw [Except.ok.injEq, Option.some.injEq] at hparse
          rw [Option.some.injEq] at hid
          rw [← hparse, if_neg]
          exact fun hc => hfirst (hid.trans hc.1)
        · simp only [Except.ok.injEq, reduceCtorEq] at hparse
  · rfl

/-- A payload without a sub-frame carries nothing. -/
theorem carried_nil (id channel : UInt32) : carried id channel [] = [] := rfl

/-- Less data makes a shorter payload, as long as the length fits its
    field. -/
theorem length_payload_le (id channel : UInt32) {x y : List UInt8} (h : x.length ≤ y.length)
    (hsize : y.length < UInt32.size) :
    (payload id channel x).length ≤ (payload id channel y).length := by
  have hlength : (Varuint.encode x.length.toUInt32).length ≤
      (Varuint.encode y.length.toUInt32).length := by
    rw [Varuint.encode, Varuint.encode, toNat_length (Nat.lt_of_le_of_lt h hsize),
      toNat_length hsize]
    exact Varuint.length_groups_le h
  simp only [payload, List.length_append]
  omega

/-- A payload is no shorter than its data. -/
theorem length_le_payload (id channel : UInt32) (data : List UInt8) :
    data.length ≤ (payload id channel data).length := by
  simp only [payload, List.length_append]
  omega

end Stream

end Multidrop
