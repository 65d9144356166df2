import Mathlib.Algebra.GroupWithZero.Nat
import Multidrop.Proofs.Varuint.Spelling

/-!
# Numbers by Their Places

What a reader makes of any bytes, said with the bytes at their places. The
first byte that announces no other, if there is one among as many as a number
may have, ends the number. It stands for the sum of what its bytes weigh, each
128 times as much as the one in front of it, and all that is left to find out
is whether that is in range. Where there is no such byte, either the bytes
break off or they announce too many.

A number has many spellings, since a reader takes empty groups at the end as
well. The one that is written has fewer bytes than any other.

## Main definitions

* `weighed`: What some bytes stand for, by their places.
* `lastPlace?`: Where the byte stands that ends a number.

## Theorems

* `value_eq_weighed`: Groups stand for what they weigh.
* `Spells.shortest`: What is written is shorter than any other spelling.
* `lastPlace?_closed`, `lastPlace?_open`: Where a number ends.
* `codec_exact`: Numbers as they are written and as they are read.
-/

namespace Multidrop

namespace Varuint

/-- What some bytes stand for: each weighs 128 times as much as the one in
    front of it, and the top bits do not count. -/
def weighed (bytes : List UInt8) : Nat :=
  (bytes.mapIdx fun place byte => byte.toNat % 128 * 128 ^ place).sum

/-- Where the first byte stands that announces no other, among as many as a
    number may have. -/
def lastPlace? (bytes : List UInt8) : Option Nat :=
  (bytes.take maxSize).findIdx? (· < 0x80)

variable {bytes front rest : List UInt8} {byte : UInt8}

/-! ### What bytes weigh -/

/-- The two parts of a byte, its top bit and the others. -/
theorem parts_of_byte : ∀ n < 256, (UInt8.ofNat n &&& 0x7f).toNat = n % 128 ∧
    (UInt8.ofNat n &&& 0x80 = 0 ↔ UInt8.ofNat n < 0x80) := by
  decide +kernel

theorem toNat_group (byte : UInt8) : (byte &&& 0x7f).toNat = byte.toNat % 128 := by
  have hparts := (parts_of_byte byte.toNat (UInt8.toNat_lt byte)).1
  rw [UInt8.ofNat_toNat] at hparts
  exact hparts

theorem and_top_eq_zero_iff (byte : UInt8) : byte &&& 0x80 = 0 ↔ byte < 0x80 := by
  have hparts := (parts_of_byte byte.toNat (UInt8.toNat_lt byte)).2
  rw [UInt8.ofNat_toNat] at hparts
  exact hparts

/-- Bytes further back weigh more, all by the same factor. -/
theorem sum_mapIdx_places (bytes : List UInt8) (places : Nat) :
    (bytes.mapIdx fun place byte => byte.toNat % 128 * 128 ^ (place + places)).sum =
      128 ^ places * value bytes := by
  induction bytes generalizing places with
  | nil => rw [List.mapIdx_nil, List.sum_nil, value, Nat.mul_zero]
  | cons byte bytes ih =>
      -- Seen from the bytes behind the first, all places are one further on.
      have hbehind := ih (places + 1)
      simp only [← Nat.add_assoc, Nat.add_right_comm _ places 1] at hbehind
      rw [List.mapIdx_cons, List.sum_cons, hbehind, value, toNat_group, Nat.zero_add, Nat.pow_succ,
        Nat.mul_add, Nat.mul_comm (byte.toNat % 128), Nat.mul_assoc]

/-- Groups stand for what they weigh. -/
theorem value_eq_weighed (bytes : List UInt8) : value bytes = weighed bytes := by
  have hsum := sum_mapIdx_places bytes 0
  rw [Nat.pow_zero, Nat.one_mul] at hsum
  exact hsum.symm

/-! ### The shortest spelling -/

/-- What is written for a spelled number has fewer bytes than the spelling, or is
    the spelling. By induction on the bytes. -/
theorem groups_value_shortest (h : Closed bytes) :
    groups (value bytes) = bytes ∨ (groups (value bytes)).length < bytes.length := by
  induction h with
  | @last byte hbyte => exact Or.inl ((groups_value_iff (.last hbyte)).mpr (Or.inl (Nat.le_refl 1)))
  | @more byte rest hbyte hrest ih =>
      by_cases hzero : value rest = 0
      · -- One byte says it all, and there are more.
        have hgroup := group_lt byte
        have hpos := List.length_pos_iff.mpr hrest.ne_nil
        rw [value, hzero, groups, if_pos (by omega), List.length_cons]
        exact Or.inr (Nat.succ_lt_succ hpos)
      · rw [groups_value_more hbyte hzero, List.cons.injEq, List.length_cons, List.length_cons]
        exact ih.imp (fun heq => ⟨rfl, heq⟩) Nat.succ_lt_succ

/-- What is written is shorter than any other spelling. -/
theorem Spells.shortest {n : UInt32} (h : Spells bytes n) :
    encode n = bytes ∨ (encode n).length < bytes.length := by
  rw [encode, ← h.value]
  exact groups_value_shortest h.closed

/-- Whatever is read as a number begins with what is written for it, or with a
    longer spelling. -/
theorem shortest_of_read {n : UInt32} (h : (read bytes).1 = .ok (some n)) :
    encode n = bytes ∨ (encode n).length < bytes.length := by
  cases begins bytes with
  | number m front rest hspells hbytes =>
      rw [hbytes, hspells.read, Except.ok.injEq, Option.some.injEq] at h
      -- What is behind the spelling only makes for more bytes.
      rw [hbytes, List.length_append, ← h]
      rcases hspells.shortest with hsame | hless
      · rw [hsame]
        cases rest with
        | nil => exact Or.inl (List.append_nil front).symm
        | cons byte rest => exact Or.inr (Nat.lt_add_of_pos_right (Nat.succ_pos _))
      · exact Or.inr (Nat.lt_add_right rest.length hless)
  | broken hbroken =>
      rw [hbroken.read] at h
      exact absurd h nofun
  | malformed e front rest hmalformed hbytes =>
      rw [hbytes, hmalformed.read] at h
      exact absurd h nofun

/-! ### Where a number ends -/

/-- The last of some closed bytes is the only one that announces no other. -/
theorem Closed.exists_last (h : Closed bytes) :
    ∃ front byte, bytes = front ++ [byte] ∧ Open front ∧ byte &&& 0x80 = 0 := by
  induction h with
  | @last byte hbyte => exact ⟨[], byte, rfl, open_nil, hbyte⟩
  | @more byte rest hbyte hrest ih =>
      rcases ih with ⟨front, last, hsplit, hopen, hlast⟩
      exact ⟨byte :: front, last, congrArg (byte :: ·) hsplit, open_cons.mpr ⟨hbyte, hopen⟩, hlast⟩

theorem findIdx?_open (h : Open bytes) : bytes.findIdx? (· < 0x80) = none := by
  rw [List.findIdx?_eq_none_iff]
  intro byte hbyte
  exact decide_eq_false fun hless => h byte hbyte ((and_top_eq_zero_iff byte).mpr hless)

/-- Closed bytes end where their last byte stands. -/
theorem lastPlace?_closed (h : Closed front) (hlength : front.length ≤ maxSize)
    (rest : List UInt8) :
    ∃ last, lastPlace? (front ++ rest) = some last ∧ last + 1 = front.length := by
  rcases h.exists_last with ⟨before, byte, hfront, hopen, hbyte⟩
  refine ⟨before.length, ?_, by rw [hfront, List.length_append, List.length_singleton]⟩
  -- The search passes over the bytes in front, which are open, and stops at the last.
  have hless : decide (byte < 0x80) = true := decide_eq_true ((and_top_eq_zero_iff byte).mp hbyte)
  rw [lastPlace?, List.take_append, List.take_of_length_le hlength, hfront, List.append_assoc,
    List.findIdx?_append, findIdx?_open hopen, Option.none_or, List.singleton_append,
    List.findIdx?_cons, hless, if_pos rfl, Option.map_some, Nat.zero_add]

/-- Open bytes do not end, as far as they are looked at. -/
theorem lastPlace?_open (h : Open (bytes.take maxSize)) : lastPlace? bytes = none :=
  findIdx?_open h

/-! ### The codec -/

/-- What a reader makes of any bytes, by their places. -/
theorem read_places (bytes : List UInt8) :
    match lastPlace? bytes with
    | some last =>
        let sum := weighed (bytes.take (last + 1))
        sum < UInt64.size ∧ read bytes =
          (if sum < UInt32.size then .ok (some (UInt32.ofNat sum))
            else .error (.outOfRange (UInt64.ofNat sum)), bytes.drop (last + 1))
    | none =>
        read bytes =
          if maxSize ≤ bytes.length then (.error .overlong, bytes.drop maxSize)
          else (.ok none, []) := by
  cases form maxSize bytes with
  | closed front rest h hlength hbytes =>
      rcases lastPlace?_closed h hlength rest with ⟨last, hlast, hend⟩
      -- So few bytes weigh less than a word can hold, in which the sum is reported.
      have hsize : value front < UInt64.size :=
        Nat.lt_of_lt_of_le (value_lt front)
          (Nat.le_trans (shiftLeft_le (Nat.le_refl 1) (Nat.mul_le_mul_left 7 hlength)) (by decide))
      rw [hbytes, hlast]
      simp only [hend, List.take_left, List.drop_left, ← value_eq_weighed]
      exact ⟨hsize, read_closed h hlength rest⟩
  -- There is no last byte, and not enough bytes to say that there is none.
  | opened h hlength =>
      have htake : bytes.take maxSize = bytes := List.take_of_length_le (Nat.le_of_lt hlength)
      rw [lastPlace?_open (by rw [htake]; exact h)]
      simp only []
      rw [if_neg (Nat.not_le.mpr hlength)]
      exact read_open h hlength
  -- Five bytes are there, and all of them announce another one.
  | endless front rest h hlength hbytes =>
      have htake : bytes.take maxSize = front := by rw [hbytes, ← hlength, List.take_left]
      have hdrop : bytes.drop maxSize = rest := by rw [hbytes, ← hlength, List.drop_left]
      have hle : maxSize ≤ bytes.length := by
        rw [hbytes, List.length_append, ← hlength]
        exact Nat.le_add_right _ _
      rw [lastPlace?_open (by rw [htake]; exact h)]
      simp only []
      rw [if_pos hle, hdrop, hbytes]
      exact read_endless h hlength rest

/-- The codec is exact. A number is written in as many bytes as its size says, one
    to five, and read back with what follows it left alone; and of all bytes that
    are read as that number, those that are written are the fewest. Of any bytes a
    reader takes those up to the first one that announces no other, if it is among
    the first five, for what they weigh: that is the number if it is in range, and
    too large if not. It takes exactly five bytes where these all announce another
    one, and all there are where they are fewer than five and do. -/
theorem codec_exact :
    (∀ (n : UInt32) (rest : List UInt8),
      (encode n).length = size n ∧ 1 ≤ size n ∧ size n ≤ 5 ∧
        read (encode n ++ rest) = (.ok (some n), rest)) ∧
    (∀ (n : UInt32) (bytes : List UInt8), (read bytes).1 = .ok (some n) →
      encode n = bytes ∨ (encode n).length < bytes.length) ∧
    ∀ bytes : List UInt8,
      match lastPlace? bytes with
      | some last =>
          let sum := weighed (bytes.take (last + 1))
          sum < UInt64.size ∧ read bytes =
            (if sum < UInt32.size then .ok (some (UInt32.ofNat sum))
              else .error (.outOfRange (UInt64.ofNat sum)), bytes.drop (last + 1))
      | none =>
          read bytes =
            if 5 ≤ bytes.length then (.error .overlong, bytes.drop 5) else (.ok none, []) := by
  refine ⟨?_, fun n bytes => shortest_of_read, read_places⟩
  intro n rest
  -- A number always has a group, even if it is zero.
  have hpos := List.length_pos_iff.mpr (closed_groups n.toNat).ne_nil
  have hle := length_encode_le n
  rw [length_encode] at hle
  exact ⟨length_encode n, length_encode n ▸ hpos, hle, read_encode n rest⟩

/-- Three bytes that stand for five, which is written in one. -/
theorem codec_exact_padded_five :
    (read [0x85, 0x80, 0x00]).1 = .ok (some 5) ∧ (encode 5).length < [0x85, 0x80, 0x00].length := by
  have hread : (read [0x85, 0x80, 0x00]).1 = .ok (some 5) := rfl
  have hne : encode 5 ≠ [0x85, 0x80, 0x00] := by
    rw [encode, groups]
    decide
  exact ⟨hread, (codec_exact.2.1 5 _ hread).resolve_left hne⟩

end Varuint

end Multidrop
