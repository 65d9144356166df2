import Multidrop.Proofs.Varuint

/-!
# Spellings of Numbers

A number may be spelled in more than one way, since empty groups at its end
add nothing. A reader takes every spelling that is short enough. What stands
at the front of some bytes is a spelling of a number, the beginning of one
that the bytes break off, or something that is no number at all, and a reader
tells the three apart.

A run of numbers is spelled by their spellings one behind the other.

## Main definitions

* `Spells`: Bytes that spell a number.
* `BrokenOff`: Bytes that break off inside a number.
* `Malformed`: Bytes that are no number, and what is wrong with them.
* `Begins`: What stands at the front of some bytes.
* `SpellsAll`: Bytes that spell a run of numbers.

## Theorems

* `Spells.read`, `BrokenOff.read`, `Malformed.read`: What a reader makes of
  them.
* `begins`, `beginsAll`: There are no other bytes.
* `Spells.cut`, `SpellsAll.cut`: What is left of numbers that are cut short.
* `spells_encode`: What is written spells what was written.
-/

namespace Multidrop

namespace Varuint

/-- Bytes that spell a number, not necessarily the shortest. -/
structure Spells (bytes : List UInt8) (n : UInt32) : Prop where
  closed : Closed bytes
  short : bytes.length ≤ maxSize
  value : value bytes = n.toNat

/-- Bytes that are no number: too many announce another one, or what they
    stand for is out of range. -/
inductive Malformed : List UInt8 → Error → Prop where
  | endless {bytes : List UInt8} (h : Open bytes) (hlength : bytes.length = maxSize) :
      Malformed bytes .overlong
  | outOfRange {bytes : List UInt8} (h : Closed bytes) (hlength : bytes.length ≤ maxSize)
      (hrange : UInt32.size ≤ value bytes) :
      Malformed bytes (.outOfRange (UInt64.ofNat (value bytes)))

/-- Bytes that break off before a number is closed, all of them announcing
    another one, or that are none. -/
structure BrokenOff (bytes : List UInt8) : Prop where
  opened : Open bytes
  short : bytes.length < maxSize

/-- What stands at the front of some bytes. -/
inductive Begins (bytes : List UInt8) : Prop where
  | number (n : UInt32) (front rest : List UInt8) (h : Spells front n)
      (hbytes : bytes = front ++ rest)
  | broken (h : BrokenOff bytes)
  | malformed (e : Error) (front rest : List UInt8) (h : Malformed front e)
      (hbytes : bytes = front ++ rest)

/-- Bytes that spell a run of numbers. -/
inductive SpellsAll : List UInt8 → List UInt32 → Prop where
  | nil : SpellsAll [] []
  | cons {front rest : List UInt8} {n : UInt32} {numbers : List UInt32} (h : Spells front n)
      (hrest : SpellsAll rest numbers) : SpellsAll (front ++ rest) (n :: numbers)

/-- What stands at the front of some bytes where a run of numbers is looked
    for: all of them, or fewer and then no further one. -/
inductive BeginsAll (count : Nat) (bytes : List UInt8) : Prop where
  | numbers (numbers : List UInt32) (front rest : List UInt8) (hcount : numbers.length = count)
      (h : SpellsAll front numbers) (hbytes : bytes = front ++ rest)
  | broken (numbers : List UInt32) (front rest : List UInt8) (hcount : numbers.length < count)
      (h : SpellsAll front numbers) (hrest : BrokenOff rest) (hbytes : bytes = front ++ rest)
  | malformed (e : Error) (numbers : List UInt32) (front bad rest : List UInt8)
      (hcount : numbers.length < count) (h : SpellsAll front numbers) (hbad : Malformed bad e)
      (hbytes : bytes = front ++ (bad ++ rest))

/-- What is written spells what was written. -/
theorem spells_encode (n : UInt32) : Spells (encode n) n :=
  ⟨closed_groups n.toNat, length_encode_le n, value_groups n.toNat⟩

/-- A spelling is read as the number it spells. -/
theorem Spells.read {bytes : List UInt8} {n : UInt32} (h : Spells bytes n) (rest : List UInt8) :
    read (bytes ++ rest) = (.ok (some n), rest) := by
  rw [read_closed h.closed h.short, verdict, h.value, if_pos (UInt32.toNat_lt n),
    UInt32.ofNat_toNat]

theorem Malformed.read {bytes : List UInt8} {e : Error} (h : Malformed bytes e)
    (rest : List UInt8) : read (bytes ++ rest) = (.error e, rest) := by
  cases h with
  | endless h hlength => exact read_endless h hlength rest
  | outOfRange h hlength hrange =>
      rw [read_closed h hlength, verdict, if_neg (Nat.not_lt.mpr hrange)]

theorem BrokenOff.read {bytes : List UInt8} (h : BrokenOff bytes) : read bytes = (.ok none, []) :=
  read_open h.opened h.short

/-- Bytes begin in one of three ways. -/
theorem begins (bytes : List UInt8) : Begins bytes := by
  cases form maxSize bytes with
  | opened h hlength => exact .broken ⟨h, hlength⟩
  | endless front rest h hlength hbytes =>
      exact .malformed _ front rest (.endless h hlength) hbytes
  | closed front rest h hlength hbytes =>
      by_cases hrange : value front < UInt32.size
      · have hvalue : value front = (UInt32.ofNat (value front)).toNat :=
          (UInt32.toNat_ofNat_of_lt' hrange).symm
        exact .number _ front rest ⟨h, hlength, hvalue⟩ hbytes
      · exact .malformed _ front rest (.outOfRange h hlength (Nat.not_lt.mp hrange)) hbytes

/-- Where a run of numbers is looked for, all of them are there or one is the
    first that is not. -/
theorem beginsAll (count : Nat) (bytes : List UInt8) : BeginsAll count bytes := by
  induction count generalizing bytes with
  | zero => exact .numbers [] [] bytes rfl .nil rfl
  | succ count ih =>
      cases begins bytes with
      | broken h => exact .broken [] [] bytes (Nat.succ_pos count) .nil h rfl
      | malformed e front rest h hbytes =>
          exact .malformed e [] [] front rest (Nat.succ_pos count) .nil h hbytes
      | number n first behind hfirst hbytes =>
          rw [hbytes]
          -- The first number is whole, so the others are looked for behind it.
          cases ih behind with
          | numbers numbers front rest hcount h hbehind =>
              refine .numbers (n :: numbers) (first ++ front) rest (congrArg Nat.succ hcount)
                (.cons hfirst h) ?_
              rw [hbehind, List.append_assoc]
          | broken numbers front rest hcount h hrest hbehind =>
              refine .broken (n :: numbers) (first ++ front) rest (Nat.succ_lt_succ hcount)
                (.cons hfirst h) hrest ?_
              rw [hbehind, List.append_assoc]
          | malformed e numbers front bad rest hcount h hbad hbehind =>
              refine .malformed e (n :: numbers) (first ++ front) bad rest
                (Nat.succ_lt_succ hcount) (.cons hfirst h) hbad ?_
              rw [hbehind, List.append_assoc]

/-- A spelling that is cut short breaks off. Anything else that a reader could say
    to a part of it, it would also say to the whole. -/
theorem Spells.cut {bytes part missing : List UInt8} {n : UInt32} (h : Spells bytes n)
    (hpart : bytes = part ++ missing) (hmissing : missing ≠ []) : BrokenOff part := by
  have hwhole := h.read []
  rw [List.append_nil, hpart] at hwhole
  cases begins part with
  | number m front rest hfront hbytes =>
      rw [hbytes, List.append_assoc, hfront.read, Prod.mk.injEq, List.append_eq_nil_iff] at hwhole
      exact absurd hwhole.2.2 hmissing
  | broken hbroken => exact hbroken
  | malformed e front rest hfront hbytes =>
      rw [hbytes, List.append_assoc, hfront.read] at hwhole
      exact absurd (congrArg Prod.fst hwhole) nofun

/-- Where a run of numbers is cut: fewer numbers are there whole, and behind them
    one breaks off. By induction on the numbers. -/
theorem SpellsAll.cut {bytes part missing : List UInt8} {numbers : List UInt32}
    (h : SpellsAll bytes numbers) (hpart : bytes = part ++ missing) (hmissing : missing ≠ []) :
    ∃ fewer front rest, fewer.length < numbers.length ∧ SpellsAll front fewer ∧ BrokenOff rest ∧
      part = front ++ rest := by
  induction h generalizing part with
  | nil => exact absurd (List.append_eq_nil_iff.mp hpart.symm).2 hmissing
  | @cons first behind n numbers hfirst hbehind ih =>
      -- The cut is behind the first number, or within it.
      rcases List.append_eq_append_iff.mp hpart with ⟨after, hafter, hrest⟩ | ⟨cut, hcut, hrest⟩
      · rcases ih hrest with ⟨fewer, front, rest, hcount, hfront, hbroken, hsplit⟩
        refine ⟨n :: fewer, first ++ front, rest, Nat.succ_lt_succ hcount, .cons hfirst hfront,
          hbroken, ?_⟩
        rw [hafter, hsplit, List.append_assoc]
      · by_cases hnil : cut = []
        · -- The first number is there whole, and nothing of the second.
          rw [hnil, List.append_nil] at hcut
          rw [hnil, List.nil_append] at hrest
          rcases @ih [] hrest.symm with ⟨fewer, front, rest, hcount, hfront, hbroken, hsplit⟩
          rw [← hcut]
          refine ⟨n :: fewer, first ++ front, rest, Nat.succ_lt_succ hcount, .cons hfirst hfront,
            hbroken, ?_⟩
          rw [List.append_assoc, ← hsplit, List.append_nil]
        · exact ⟨[], [], part, Nat.succ_pos _, .nil, hfirst.cut hcut hnil, rfl⟩

theorem SpellsAll.of_cons {bytes : List UInt8} {n : UInt32} {numbers : List UInt32}
    (h : SpellsAll bytes (n :: numbers)) :
    ∃ front rest, bytes = front ++ rest ∧ Spells front n ∧ SpellsAll rest numbers := by
  cases h with
  | cons h hrest => exact ⟨_, _, rfl, h, hrest⟩

theorem SpellsAll.of_nil {bytes : List UInt8} (h : SpellsAll bytes []) : bytes = [] := by
  cases h
  rfl

end Varuint

end Multidrop
