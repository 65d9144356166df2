import Multidrop.Proofs.Varuint.Form

/-!
# Numbers That Are Read Back

What was written as a number is read as that number, and what follows it is
left alone. The groups that are written are closed and stand for the number,
so this is a case of what a reader makes of closed bytes.

A reader takes longer spellings of a number as well, which end in empty
groups. Among all bytes that stand for a number those that are written are
the ones that do not, so they are told from the others by their last byte.

## Main definitions

* `Minimal`: Bytes that do not end in an empty group.

## Theorems

* `length_groups_le`: A larger number takes no fewer bytes.
* `length_encode`: How many bytes a number takes.
* `read_encode`: A number that was written is read.
* `groups_value_more`: A group in front of others is written as it was.
* `encode_value_iff`: Which bytes are those that are written.
-/

namespace Multidrop

namespace Varuint

/-- Bytes that do not end in an empty group, unless there is only one. -/
def Minimal (bytes : List UInt8) : Prop :=
  bytes.length ≤ 1 ∨ bytes.getLast? ≠ some 0

/-- A larger number takes no fewer bytes. -/
theorem length_groups_le {m n : Nat} (h : m ≤ n) :
    (groups m).length ≤ (groups n).length := by
  induction n using Nat.strongRecOn generalizing m with
  | ind n ih =>
    rw [groups.eq_def m, groups.eq_def n]
    by_cases hm : m < 128
    · rw [if_pos hm]
      split
      · exact Nat.le_refl _
      · simp only [List.length_cons, List.length_nil]
        omega
    · rw [if_neg hm, if_neg (by omega), List.length_cons, List.length_cons]
      have hdiv := ih (n / 128) (by omega) (Nat.div_le_div_right (c := 128) h)
      omega

theorem length_groups (n : Nat) : (groups n).length = groupCount n := by
  induction n using Nat.strongRecOn with
  | ind n ih =>
    rw [groups, groupCount]
    by_cases hn : n < 128
    · rw [if_pos hn, if_pos hn, List.length_singleton]
    · rw [if_neg hn, if_neg hn, List.length_cons, ih (n / 128) (by omega)]

/-- How many bytes a number takes. -/
theorem length_encode (value : UInt32) : (encode value).length = size value :=
  length_groups value.toNat

/-- A number has no more groups than its bits fill. -/
theorem length_groups_of_lt {n count : Nat} (h : n < 1 <<< (7 * (count + 1))) :
    (groups n).length ≤ count + 1 := by
  induction count generalizing n with
  | zero =>
      have hlt : n < 128 := h
      rw [groups, if_pos hlt]
      exact Nat.le_refl _
  | succ count ih =>
      rw [groups]
      by_cases hn : n < 128
      · rw [if_pos hn, List.length_singleton]
        omega
      · rw [shiftLeft_group] at h
        rw [if_neg hn, List.length_cons]
        exact Nat.succ_le_succ (ih (by omega))

theorem length_encode_le (value : UInt32) : (encode value).length ≤ maxSize := by
  have hlt : value.toNat < 1 <<< (7 * (4 + 1)) :=
    Nat.lt_of_lt_of_le (UInt32.toNat_lt value) (by decide)
  exact length_groups_of_lt hlt

/-- The bits of a byte that ends a number. -/
theorem last_bits : ∀ group < 128, UInt8.ofNat group &&& 0x80 = 0 ∧
    (UInt8.ofNat group &&& 0x7f).toNat = group := by
  decide

/-- The bits of a byte that does not. -/
theorem more_bits : ∀ group < 128, UInt8.ofNat (group + 128) &&& 0x80 ≠ 0 ∧
    (UInt8.ofNat (group + 128) &&& 0x7f).toNat = group := by
  decide

/-- The groups of a number are closed. -/
theorem closed_groups (n : Nat) : Closed (groups n) := by
  induction n using Nat.strongRecOn with
  | ind n ih =>
    rw [groups]
    by_cases hn : n < 128
    · rw [if_pos hn]
      exact .last (last_bits n hn).1
    · rw [if_neg hn]
      exact .more (more_bits (n % 128) (Nat.mod_lt _ (by decide))).1 (ih (n / 128) (by omega))

/-- The groups of a number stand for it. -/
theorem value_groups (n : Nat) : value (groups n) = n := by
  induction n using Nat.strongRecOn with
  | ind n ih =>
    rw [groups]
    by_cases hn : n < 128
    · rw [if_pos hn, value, value, (last_bits n hn).2]
      omega
    · have hbits := (more_bits (n % 128) (Nat.mod_lt _ (by decide))).2
      rw [if_neg hn, value, hbits, ih (n / 128) (by omega)]
      omega

/-- A number that was written is read, and what follows it is left. -/
theorem read_encode (value : UInt32) (rest : List UInt8) :
    read (encode value ++ rest) = (.ok (some value), rest) := by
  have hread := read_closed (closed_groups value.toNat) (length_encode_le value) rest
  rw [value_groups, verdict, if_pos (UInt32.toNat_lt value), UInt32.ofNat_toNat] at hread
  exact hread

/-- The two bits of information a byte of a number holds are all there is to
    it. -/
theorem bits_of_byte : ∀ byte < 256, UInt8.ofNat byte &&& 0x80 = 0 ∧
      UInt8.ofNat (UInt8.ofNat byte &&& 0x7f).toNat = UInt8.ofNat byte ∨
    UInt8.ofNat byte &&& 0x80 ≠ 0 ∧
      UInt8.ofNat ((UInt8.ofNat byte &&& 0x7f).toNat + 128) = UInt8.ofNat byte := by
  decide +kernel

theorem ofNat_group {byte : UInt8} (h : byte &&& 0x80 = 0) :
    UInt8.ofNat (byte &&& 0x7f).toNat = byte := by
  have hbits := bits_of_byte byte.toNat (UInt8.toNat_lt byte)
  rw [UInt8.ofNat_toNat] at hbits
  rcases hbits with ⟨_, hgroup⟩ | ⟨hmore, _⟩
  · exact hgroup
  · exact absurd h hmore

theorem ofNat_group_add {byte : UInt8} (h : byte &&& 0x80 ≠ 0) :
    UInt8.ofNat ((byte &&& 0x7f).toNat + 128) = byte := by
  have hbits := bits_of_byte byte.toNat (UInt8.toNat_lt byte)
  rw [UInt8.ofNat_toNat] at hbits
  rcases hbits with ⟨hlast, _⟩ | ⟨_, hgroup⟩
  · exact absurd hlast h
  · exact hgroup

/-- What stands for nothing ends in an empty group. -/
theorem getLast?_of_value_zero {bytes : List UInt8} (h : Closed bytes)
    (hvalue : value bytes = 0) : bytes.getLast? = some 0 := by
  induction h with
  | @last byte hbyte =>
      have hgroup : (byte &&& 0x7f).toNat = 0 := by
        rw [value] at hvalue
        omega
      have hzero := ofNat_group hbyte
      rw [hgroup] at hzero
      rw [← hzero]
      rfl
  | @more byte rest hbyte hrest ih =>
      rw [value] at hvalue
      rw [List.getLast?_cons_of_ne_nil hrest.ne_nil]
      exact ih (by omega)

/-- What is not empty and has one group does not end in an empty one. -/
theorem getLast?_of_single {bytes : List UInt8} (h : bytes.length ≤ 1)
    (hvalue : value bytes ≠ 0) : bytes.getLast? ≠ some 0 := by
  match bytes with
  | [] => exact absurd rfl hvalue
  | [byte] =>
      intro hlast
      rw [List.getLast?_singleton, Option.some.injEq] at hlast
      rw [hlast] at hvalue
      exact hvalue rfl
  | _ :: _ :: rest =>
      simp only [List.length_cons] at h
      omega

/-- A group in front of empty ones could do without them. -/
theorem not_minimal_cons {byte : UInt8} {rest : List UInt8} (h : Closed rest)
    (hvalue : value rest = 0) : ¬ Minimal (byte :: rest) := by
  have hpos := List.length_pos_iff.mpr h.ne_nil
  intro hminimal
  rw [Minimal, List.getLast?_cons_of_ne_nil h.ne_nil, List.length_cons] at hminimal
  rcases hminimal with hshort | hne
  · omega
  · exact hne (getLast?_of_value_zero h hvalue)

/-- A group in front of others that are not empty makes no difference. -/
theorem minimal_cons_iff {byte : UInt8} {rest : List UInt8} (h : Closed rest)
    (hvalue : value rest ≠ 0) : Minimal (byte :: rest) ↔ Minimal rest := by
  have hpos := List.length_pos_iff.mpr h.ne_nil
  rw [Minimal, Minimal, List.getLast?_cons_of_ne_nil h.ne_nil, List.length_cons]
  constructor
  · intro hminimal
    exact hminimal.imp (fun hshort => by omega) id
  · intro hminimal
    rcases hminimal with hshort | hne
    · exact Or.inr (getLast?_of_single hshort hvalue)
    · exact Or.inr hne

/-- In front of groups that are not empty a group is written as it was. -/
theorem groups_value_more {byte : UInt8} {rest : List UInt8} (hbyte : byte &&& 0x80 ≠ 0)
    (hvalue : value rest ≠ 0) : groups (value (byte :: rest)) = byte :: groups (value rest) := by
  have hgroup := group_lt byte
  have hsum : value (byte :: rest) = (byte &&& 0x7f).toNat + 128 * value rest := rfl
  have hmod : value (byte :: rest) % 128 = (byte &&& 0x7f).toNat := by omega
  have hdiv : value (byte :: rest) / 128 = value rest := by omega
  rw [groups, if_neg (by omega), hmod, hdiv, ofNat_group_add hbyte]

/-- Closed bytes are the groups of what they stand for just if they do not end
    in an empty one. By induction on the bytes. -/
theorem groups_value_iff {bytes : List UInt8} (h : Closed bytes) :
    groups (value bytes) = bytes ↔ Minimal bytes := by
  induction h with
  | @last byte hbyte =>
      -- A single group is always written, even an empty one.
      have hvalue : value [byte] = (byte &&& 0x7f).toNat := by
        rw [value, value]
        omega
      have hgroup := group_lt byte
      rw [hvalue, groups, if_pos hgroup, ofNat_group hbyte]
      exact iff_of_true rfl (Or.inl (Nat.le_refl _))
  | @more byte rest hbyte hrest ih =>
      have hgroup := group_lt byte
      have hpos := List.length_pos_iff.mpr hrest.ne_nil
      by_cases hzero : value rest = 0
      · -- The groups behind the first are empty, and not written.
        refine iff_of_false ?_ (not_minimal_cons hrest hzero)
        rw [value, groups, if_pos (by omega)]
        intro heq
        have hlength := congrArg List.length heq
        simp only [List.length_cons, List.length_nil] at hlength
        omega
      · -- The first group is written, and then the others.
        rw [groups_value_more hbyte hzero, List.cons.injEq, minimal_cons_iff hrest hzero, ih]
        exact and_iff_right rfl

/-- Bytes that stand for a number are those it is written with just if they
    do not end in an empty group. -/
theorem encode_value_iff {bytes : List UInt8} (h : Closed bytes)
    (hrange : value bytes < UInt32.size) :
    encode (UInt32.ofNat (value bytes)) = bytes ↔ Minimal bytes := by
  rw [encode, UInt32.toNat_ofNat_of_lt' hrange]
  exact groups_value_iff h

end Varuint

end Multidrop
