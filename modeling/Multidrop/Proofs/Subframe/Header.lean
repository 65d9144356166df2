import Multidrop.Proofs.Subframe.Stream
import Multidrop.Proofs.Varuint.Spelling

/-!
# Headers of Stream Sub-frames

A stream sub-frame opens with three numbers: its identifier, its channel and the
length of its data. What a reader makes of a payload depends on these three alone.
If all of them are there, it finds a sub-frame, whose data is what was announced or
what there is of it. If one of them is no number, it fails with what is wrong with
the first such one, and if one of them breaks off, it finds nothing.

The numbers may be spelled in any way, and those in front of a broken one do not
matter. What is written spells them, so a sub-frame that is cut short is one of
these cases: cut within the three numbers it has a number that breaks off, and cut
behind them it has less data than it announces.

## Theorems

* `parse_numbers`, `parse_broken`, `parse_malformed`: What a reader makes of the
  numbers.
* `parse_some_iff`, `parse_none_iff`, `parse_error_iff`: The same the other way
  around.
* `parse_cut`: What it makes of a sub-frame that is cut short.
* `subframe_codec`: Sub-frames as they are written and as they are read.
-/

namespace Multidrop

namespace Stream

open Varuint (SpellsAll BrokenOff Malformed)

variable {id channel length : UInt32} {numbers : List UInt32} {e : Varuint.Error}
  {bytes front bad rest part missing data : List UInt8} {chunk : Chunk}

/-- The numbers in front of the third one that are there whole. -/
theorem fewer_cases (hcount : numbers.length < 3) :
    numbers = [] ∨ (∃ id, numbers = [id]) ∨ ∃ id channel, numbers = [id, channel] := by
  match numbers, hcount with
  | [], _ => exact Or.inl rfl
  | [id], _ => exact Or.inr (Or.inl ⟨id, rfl⟩)
  | [id, channel], _ => exact Or.inr (Or.inr ⟨id, channel, rfl⟩)

/-- Three numbers open a sub-frame. -/
theorem parse_numbers (h : SpellsAll front [id, channel, length]) (rest : List UInt8) :
    parse (front ++ rest) = .ok (some { id, channel, data := rest.take length.toNat }) := by
  rcases h.of_cons with ⟨first, behind, hfront, hid, hbehind⟩
  rcases hbehind.of_cons with ⟨second, last, hrest, hchannel, hlast⟩
  rcases hlast.of_cons with ⟨third, none, hthird, hlength, hnone⟩
  rw [hfront, hrest, hthird, hnone.of_nil, List.append_nil, List.append_assoc, List.append_assoc,
    parse]
  simp only [hid.read, hchannel.read, hlength.read]

/-- A reader that has found fewer than three numbers stops at what is none. -/
theorem parse_stops (hcount : numbers.length < 3) (h : SpellsAll front numbers)
    {verdict : Except Varuint.Error (Option UInt32)} {left : List UInt8}
    (hread : Varuint.read rest = (verdict, left))
    (hstops : verdict = .ok none ∧ left = [] ∨ ∃ e, verdict = .error e) :
    parse (front ++ rest) = verdict.map fun _ => none := by
  -- Behind a number that breaks off, the others are looked for in no bytes at all.
  have hnil : Varuint.read [] = (.ok none, []) := rfl
  -- None of the three numbers is there, or one, or two.
  rcases fewer_cases hcount with hnumbers | ⟨id, hnumbers⟩ | ⟨id, channel, hnumbers⟩
  · rw [hnumbers] at h
    rw [h.of_nil, List.nil_append, parse, hread]
    rcases hstops with ⟨hnone, hleft⟩ | ⟨e, herror⟩
    · simp only [hnone, hleft, hnil, Except.map]
    · simp only [herror, Except.map]
  · rw [hnumbers] at h
    rcases h.of_cons with ⟨first, none, hfront, hid, hnone⟩
    rw [hfront, hnone.of_nil, List.append_nil, parse]
    simp only [hid.read, hread]
    rcases hstops with ⟨hnone, hleft⟩ | ⟨e, herror⟩
    · simp only [hnone, hleft, hnil, Except.map]
    · simp only [herror, Except.map]
  · rw [hnumbers] at h
    rcases h.of_cons with ⟨first, behind, hfront, hid, hbehind⟩
    rcases hbehind.of_cons with ⟨second, none, hsecond, hchannel, hnone⟩
    rw [hfront, hsecond, hnone.of_nil, List.append_nil, List.append_assoc, parse]
    simp only [hid.read, hchannel.read, hread]
    rcases hstops with ⟨hnone, hleft⟩ | ⟨e, herror⟩
    · simp only [hnone, Except.map]
    · simp only [herror, Except.map]

/-- Nothing is found where one of the three breaks off. -/
theorem parse_broken (hcount : numbers.length < 3) (h : SpellsAll front numbers)
    (hrest : BrokenOff rest) : parse (front ++ rest) = .ok none :=
  parse_stops hcount h hrest.read (Or.inl ⟨rfl, rfl⟩)

/-- A reader fails at the first of the three that is no number. -/
theorem parse_malformed (hcount : numbers.length < 3) (h : SpellsAll front numbers)
    (hbad : Malformed bad e) (rest : List UInt8) : parse (front ++ (bad ++ rest)) = .error e :=
  parse_stops hcount h (hbad.read rest) (Or.inr ⟨e, rfl⟩)

/-! ### What a reader makes of any payload -/

/-- A sub-frame is found just if all three numbers are there, and its data is what
    they announce of what is behind them, or all of that. -/
theorem parse_some_iff :
    parse bytes = .ok (some chunk) ↔
      ∃ length front rest, SpellsAll front [chunk.id, chunk.channel, length] ∧
        bytes = front ++ rest ∧ chunk.data = rest.take (min length.toNat rest.length) := by
  constructor
  · intro hparse
    -- What three numbers begin with decides all that the parser can say.
    cases Varuint.beginsAll 3 bytes with
    | numbers numbers front rest hcount h hbytes =>
        match numbers, hcount with
        | [id, channel, length], _ =>
            rw [hbytes, parse_numbers h, Except.ok.injEq, Option.some.injEq] at hparse
            rw [← hparse]
            exact ⟨length, front, rest, h, hbytes, List.take_eq_take_min⟩
    | broken numbers front rest hcount h hrest hbytes =>
        rw [hbytes, parse_broken hcount h hrest] at hparse
        exact absurd hparse nofun
    | malformed e numbers front bad rest hcount h hbad hbytes =>
        rw [hbytes, parse_malformed hcount h hbad] at hparse
        exact absurd hparse nofun
  · rintro ⟨length, front, rest, h, hbytes, hdata⟩
    rw [← List.take_eq_take_min] at hdata
    rw [hbytes, parse_numbers h, ← hdata]

/-- Nothing is found just if one of the three breaks off. -/
theorem parse_none_iff :
    parse bytes = .ok none ↔
      ∃ numbers front rest, numbers.length < 3 ∧ SpellsAll front numbers ∧ BrokenOff rest ∧
        bytes = front ++ rest := by
  constructor
  · intro hparse
    cases Varuint.beginsAll 3 bytes with
    | numbers numbers front rest hcount h hbytes =>
        match numbers, hcount with
        | [id, channel, length], _ =>
            rw [hbytes, parse_numbers h] at hparse
            exact absurd hparse nofun
    | broken numbers front rest hcount h hrest hbytes =>
        exact ⟨numbers, front, rest, hcount, h, hrest, hbytes⟩
    | malformed e numbers front bad rest hcount h hbad hbytes =>
        rw [hbytes, parse_malformed hcount h hbad] at hparse
        exact absurd hparse nofun
  · rintro ⟨numbers, front, rest, hcount, h, hrest, hbytes⟩
    rw [hbytes, parse_broken hcount h hrest]

/-- A reader fails just if one of the three is no number, and those in front of it
    are. -/
theorem parse_error_iff :
    parse bytes = .error e ↔
      ∃ numbers front bad rest, numbers.length < 3 ∧ SpellsAll front numbers ∧ Malformed bad e ∧
        bytes = front ++ (bad ++ rest) := by
  constructor
  · intro hparse
    cases Varuint.beginsAll 3 bytes with
    | numbers numbers front rest hcount h hbytes =>
        match numbers, hcount with
        | [id, channel, length], _ =>
            rw [hbytes, parse_numbers h] at hparse
            exact absurd hparse nofun
    | broken numbers front rest hcount h hrest hbytes =>
        rw [hbytes, parse_broken hcount h hrest] at hparse
        exact absurd hparse nofun
    | malformed e' numbers front bad rest hcount h hbad hbytes =>
        rw [hbytes, parse_malformed hcount h hbad, Except.error.injEq] at hparse
        exact ⟨numbers, front, bad, rest, hcount, h, hparse ▸ hbad, hbytes⟩
  · rintro ⟨numbers, front, bad, rest, hcount, h, hbad, hbytes⟩
    rw [hbytes, parse_malformed hcount h hbad]

/-! ### Sub-frames that were written -/

/-- The numbers that are written in front of the data. -/
theorem spellsAll_header (id channel length : UInt32) :
    SpellsAll (Varuint.encode id ++ Varuint.encode channel ++ Varuint.encode length)
      [id, channel, length] := by
  have hall := SpellsAll.cons (Varuint.spells_encode id) (.cons (Varuint.spells_encode channel)
    (.cons (Varuint.spells_encode length) .nil))
  rw [List.append_nil, ← List.append_assoc] at hall
  exact hall

/-- Of a sub-frame that is cut short, what is there of its data is found, unless it
    is cut within the three numbers. -/
theorem parse_cut (id channel : UInt32) (h : data.length < UInt32.size)
    (hpart : payload id channel data = part ++ missing) :
    let header := headerSize id channel data.length.toUInt32
    parse part =
      if part.length < header then .ok none
      else .ok (some { id, channel, data := data.take (part.length - header) }) := by
  have hspells := spellsAll_header id channel data.length.toUInt32
  have hsize : (Varuint.encode id ++ Varuint.encode channel ++
      Varuint.encode data.length.toUInt32).length =
      headerSize id channel data.length.toUInt32 := by
    simp only [headerSize, List.length_append, Varuint.length_encode]
  rw [payload] at hpart
  generalize Varuint.encode id ++ Varuint.encode channel ++
    Varuint.encode data.length.toUInt32 = header at hspells hsize hpart
  -- Behind the numbers there is a part of the data, or nothing.
  have hbehind : ∀ there, part = header ++ there → there = data.take there.length →
      parse part = .ok (some {
        id, channel, data := data.take (part.length - header.length) }) := by
    intro there hthere hdata
    have hlength : (header ++ there).length - header.length = there.length := by
      rw [List.length_append, Nat.add_sub_cancel_left]
    have hle : there.length ≤ data.length := by
      rw [hdata, List.length_take]
      exact Nat.min_le_right _ _
    rw [hthere, parse_numbers hspells, toNat_length h, List.take_of_length_le hle, hlength, ← hdata]
  simp only [← hsize]
  rcases List.append_eq_append_iff.mp hpart with ⟨there, hthere, hdata⟩ | ⟨cut, hcut, hrest⟩
  · rw [if_neg (by rw [hthere, List.length_append]; omega)]
    exact hbehind there hthere (by rw [hdata, List.take_left])
  · -- The cut is within the header or right behind it.
    by_cases hnil : cut = []
    · rw [hnil, List.append_nil] at hcut
      rw [if_neg (by rw [hcut]; exact Nat.lt_irrefl _)]
      exact hbehind [] (by rw [hcut, List.append_nil]) rfl
    · -- Of the numbers something is missing, so one of them breaks off.
      have hpos := List.length_pos_iff.mpr hnil
      rcases hspells.cut hcut hnil with ⟨fewer, front, rest, hcount, hfront, hbroken, hsplit⟩
      rw [if_pos (by rw [hcut, List.length_append]; omega), hsplit]
      exact parse_broken hcount hfront hbroken

/-- Sub-frames as they are written and as they are read. A sub-frame is put behind
    the bytes of a buffer as it is on its own, and read back whatever follows it.
    Cut short within its three numbers it is none, and cut short behind them it has
    the data that is there. Of any payload a reader makes a sub-frame with as much
    data as is announced and there, if three numbers open it; fails if one of the
    first three is overlong or out of range; and finds nothing if one breaks off. -/
theorem subframe_codec (id channel : UInt32) (data : List UInt8) (h : data.length < UInt32.size) :
    (∀ buffer, appendTo buffer id channel data = buffer ++ payload id channel data) ∧
    (∀ rest, parse (payload id channel data ++ rest) = .ok (some { id, channel, data })) ∧
    (∀ part missing, payload id channel data = part ++ missing →
      let header := headerSize id channel data.length.toUInt32
      parse part =
        if part.length < header then .ok none
        else .ok (some { id, channel, data := data.take (part.length - header) })) ∧
    ∀ bytes,
      (∀ e, parse bytes = .error e ↔
        ∃ numbers front bad rest, numbers.length < 3 ∧ SpellsAll front numbers ∧
          Malformed bad e ∧ bytes = front ++ (bad ++ rest)) ∧
      (parse bytes = .ok none ↔
        ∃ numbers front rest, numbers.length < 3 ∧ SpellsAll front numbers ∧ BrokenOff rest ∧
          bytes = front ++ rest) ∧
      ∀ chunk, parse bytes = .ok (some chunk) ↔
        ∃ length front rest, SpellsAll front [chunk.id, chunk.channel, length] ∧
          bytes = front ++ rest ∧ chunk.data = rest.take (min length.toNat rest.length) := by
  refine ⟨?_, ?_, fun part missing => parse_cut id channel h,
    fun bytes => ⟨fun e => parse_error_iff, parse_none_iff, fun chunk => parse_some_iff⟩⟩
  · intro buffer
    simp only [appendTo, payload, List.append_assoc]
  · intro rest
    have hread := parse_numbers (spellsAll_header id channel data.length.toUInt32) (data ++ rest)
    rw [toNat_length h, List.take_left, ← List.append_assoc] at hread
    exact hread

/-- Two bytes for a channel with a long number, cut within that and behind it. -/
theorem subframe_codec_long_channel :
    payload 0x41 300 [0x68, 0x69] = [0x41, 0xac, 0x02, 0x02, 0x68, 0x69] ∧
      parse [0x41, 0xac] = .ok none ∧
      parse [0x41, 0xac, 0x02, 0x02, 0x68] = .ok (some ⟨0x41, 300, [0x68]⟩) := by
  have hid : Varuint.encode 0x41 = [0x41] := by
    rw [Varuint.encode, Varuint.groups]
    rfl
  have hchannel : Varuint.encode 300 = [0xac, 0x02] := by
    rw [Varuint.encode, Varuint.groups, if_neg (by decide), Varuint.groups]
    rfl
  have hlength : Varuint.encode [(0x68 : UInt8), 0x69].length.toUInt32 = [0x02] := by
    rw [Varuint.encode, Varuint.groups]
    rfl
  have hpayload : payload 0x41 300 [0x68, 0x69] = [0x41, 0xac, 0x02, 0x02, 0x68, 0x69] := by
    rw [payload, hid, hchannel, hlength]
    rfl
  -- The channel takes two bytes, so the header has four.
  have hheader : headerSize 0x41 300 [(0x68 : UInt8), 0x69].length.toUInt32 = 4 := by
    rw [headerSize, ← Varuint.length_encode, ← Varuint.length_encode, ← Varuint.length_encode,
      hid, hchannel, hlength]
    rfl
  have hcuts := (subframe_codec 0x41 300 [0x68, 0x69] (by decide)).2.2.1
  simp only [hheader, hpayload] at hcuts
  exact ⟨hpayload, hcuts [0x41, 0xac] [0x02, 0x02, 0x68, 0x69] rfl,
    hcuts [0x41, 0xac, 0x02, 0x02, 0x68] [0x69] rfl⟩

end Stream

end Multidrop
