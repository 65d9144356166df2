import Multidrop.Proofs.Register.Table
import Multidrop.Proofs.Register.Value
import Multidrop.Proofs.Varuint.Spelling
import Multidrop.Register.Reply

/-!
# The Grammar of Replies

A reply is a run of reports, each of one value, of values for consecutive
registers, or of an error. A report is written as a few numbers, of which the
first names its kind, and the bytes of its values behind them. It fits if its
registers do not run past the last register number.

What a reader makes of a payload is settled by this alone. It takes the
reports that fit as long as one stands at the front, and keeps of them what
was reported last for each register. What stands behind them is no report
that fits, and is of exactly one of the kinds of `Tail`, which says how the
reading ends.

## Main definitions

* `Report`: A report.
* `Report.Written`: The bytes of a report.
* `Tail`: Bytes at whose front no report stands, and how reading ends there.
* `Splits`: The reports at the front of a payload, and what follows them.

## Theorems

* `parseSubframe_written`, `parseSubframe_tail`: What a reader makes of each.
* `report_or_tail`: There are no other bytes.
* `reply_grammar`: What a reader makes of a payload.
-/

namespace Multidrop

namespace Register

/-- What a device reports at a time. -/
inductive Report where
  /-- The value of a register. -/
  | single (register : UInt32) (v : Value)
  /-- The values of consecutive registers, all of one type. -/
  | multiple (kind : Kind) (start count : UInt32) (values : List Value)
      (hkind : ∀ v ∈ values, v.kind = kind) (hcount : values.length = count.toNat)
  /-- An error, of a write or of a read. -/
  | refusal (id register code : UInt32)
      (hid : id = Subframe.writeError ∨ id = Subframe.readError)

namespace Report

/-- What a report opens with. The low two bits name the type of its values. -/
def id : Report → UInt32
  | .single _ v => Subframe.replySingle + v.kind.tag
  | .multiple kind _ _ _ _ _ => Subframe.replyMultiple + kind.tag
  | .refusal id _ _ _ => id

/-- The numbers behind that. -/
def operands : Report → List UInt32
  | .single register _ => [register]
  | .multiple _ start count _ _ _ => [start, count]
  | .refusal _ register code _ => [register, code]

/-- The numbers a report begins with. -/
def numbers (r : Report) : List UInt32 :=
  r.id :: r.operands

/-- The bytes behind its numbers. -/
def data : Report → List UInt8
  | .single _ v => v.encode
  | .multiple _ _ _ values _ _ => values.flatMap Value.encode
  | .refusal _ _ _ _ => []

/-- What is reported for which register. -/
def rows : Report → List Row
  | .single register v => [(register, .value v)]
  | .multiple _ start _ values _ _ =>
      values.mapIdx fun i v => (start + UInt32.ofNat i, .value v)
  | .refusal _ register code _ => [(register, .error code)]

/-- The registers do not run past the last register number. -/
def Fits : Report → Prop
  | .multiple _ start count _ _ _ => start.toNat + count.toNat ≤ UInt32.size
  | _ => True

/-- The bytes of a report. Its numbers may be spelled in any way. -/
def Written (r : Report) (bytes : List UInt8) : Prop :=
  ∃ front, Varuint.SpellsAll front r.numbers ∧ bytes = front ++ r.data

end Report

/-- Some report goes on with a further number behind these. -/
def Expects (numbers : List UInt32) : Prop :=
  ∃ (r : Report) (n : UInt32) (more : List UInt32), r.numbers = numbers ++ n :: more

/-- Bytes at whose front no report that fits stands, and how reading ends
    there: with a reason to stop, or none, or with an error. -/
inductive Tail : List UInt8 → Except Varuint.Error (Option Stop) → Prop where
  /-- Nothing, or what a report opens with breaks off. -/
  | finished {rest : List UInt8} (h : Varuint.BrokenOff rest) : Tail rest (.ok none)
  /-- No report opens like this. -/
  | unknown {front rest : List UInt8} {id : UInt32} (hfront : Varuint.Spells front id)
      (hid : id < 0x20 ∨ 0x29 < id) : Tail (front ++ rest) (.ok (some (.unknownSubframe id)))
  /-- One of the other numbers of a report breaks off. -/
  | brokenOff {front rest : List UInt8} {id : UInt32} {numbers : List UInt32}
      (hfront : Varuint.SpellsAll front (id :: numbers)) (hexpects : Expects (id :: numbers))
      (h : Varuint.BrokenOff rest) : Tail (front ++ rest) (.ok (some .truncated))
  /-- The bytes behind the numbers of a report break off. -/
  | missing {front rest : List UInt8} {r : Report} (hfront : Varuint.SpellsAll front r.numbers)
      (h : rest.length < r.data.length) : Tail (front ++ rest) (.ok (some .truncated))
  /-- A report is there, and does not fit. -/
  | overflow {front rest : List UInt8} {r : Report} (hfront : r.Written front)
      (h : ¬ r.Fits) : Tail (front ++ rest) (.ok (some .registerOverflow))
  /-- Where a report goes on with a number there is no number. -/
  | malformed {front bytes rest : List UInt8} {numbers : List UInt32} {e : Varuint.Error}
      (hfront : Varuint.SpellsAll front numbers) (hexpects : Expects numbers)
      (h : Varuint.Malformed bytes e) : Tail (front ++ (bytes ++ rest)) (.error e)

/-- The reports at the front of a payload, and what follows them. -/
inductive Splits : List UInt8 → List Report → List UInt8 → Prop where
  | nil (rest : List UInt8) : Splits rest [] rest
  | cons {front payload rest : List UInt8} {r : Report} {reports : List Report}
      (h : r.Written front) (hfits : r.Fits) (hrest : Splits payload reports rest) :
      Splits (front ++ payload) (r :: reports) rest

variable {kind : Kind} {front rest : List UInt8}

/-- The type bits are the two lowest ones. -/
theorem toNat_base (id : UInt32) : (Subframe.base id).toNat / 4 = id.toNat / 4 := by
  have hmask : (~~~Subframe.typeMask).toNat >>> 2 = 2 ^ 30 - 1 := by decide
  have hid := UInt32.toNat_lt id
  have hlt : id.toNat >>> 2 < 2 ^ 30 := by
    rw [Nat.shiftRight_eq_div_pow]
    omega
  have hshift : (Subframe.base id).toNat >>> 2 = id.toNat >>> 2 := by
    rw [Subframe.base, UInt32.toNat_and, Nat.shiftRight_and_distrib, hmask,
      Nat.and_two_pow_sub_one_eq_mod, Nat.mod_eq_of_lt hlt]
  rw [Nat.shiftRight_eq_div_pow, Nat.shiftRight_eq_div_pow] at hshift
  exact hshift

/-- What an identifier can be. -/
theorem id_cases (id : UInt32) :
    (∃ kind : Kind, id = Subframe.replySingle + kind.tag) ∨
      (∃ kind : Kind, id = Subframe.replyMultiple + kind.tag) ∨
      (id = Subframe.writeError ∨ id = Subframe.readError) ∨ (id < 0x20 ∨ 0x29 < id) := by
  by_cases hlow : id < 0x20
  · exact Or.inr (Or.inr (Or.inr (Or.inl hlow)))
  by_cases hhigh : 0x29 < id
  · exact Or.inr (Or.inr (Or.inr (Or.inr hhigh)))
  -- There are ten identifiers in between.
  have hid : id = UInt32.ofNat id.toNat := UInt32.ofNat_toNat.symm
  rw [UInt32.lt_iff_toNat_lt] at hlow hhigh
  have hall : ∀ n : Fin 10,
      (∃ kind ∈ Kind.all, UInt32.ofNat (n.val + 32) = Subframe.replySingle + kind.tag) ∨
        (∃ kind ∈ Kind.all, UInt32.ofNat (n.val + 32) = Subframe.replyMultiple + kind.tag) ∨
        (UInt32.ofNat (n.val + 32) = Subframe.writeError ∨
          UInt32.ofNat (n.val + 32) = Subframe.readError) := by
    decide
  have hbounds : 32 ≤ id.toNat ∧ id.toNat ≤ 41 := ⟨Nat.not_lt.mp hlow, Nat.not_lt.mp hhigh⟩
  have hcase := hall ⟨id.toNat - 32, by omega⟩
  rw [Nat.sub_add_cancel hbounds.1, ← hid] at hcase
  rcases hcase with ⟨kind, _, h⟩ | ⟨kind, _, h⟩ | h
  · exact Or.inl ⟨kind, h⟩
  · exact Or.inr (Or.inl ⟨kind, h⟩)
  · exact Or.inr (Or.inr (Or.inl h))

theorem parseSubframe_single (h : Varuint.Spells front (Subframe.replySingle + kind.tag))
    (rest : List UInt8) : parseSubframe (front ++ rest) = parseSingle kind rest := by
  have hbase : Subframe.base (Subframe.replySingle + kind.tag) = Subframe.replySingle := by
    cases kind <;> decide
  have hkind : Kind.ofTag (Subframe.replySingle + kind.tag) = kind := by
    cases kind <;> decide
  rw [parseSubframe, h.read]
  simp only [if_pos hbase, hkind]

theorem parseSubframe_multiple (h : Varuint.Spells front (Subframe.replyMultiple + kind.tag))
    (rest : List UInt8) : parseSubframe (front ++ rest) = parseMultiple kind rest := by
  have hsingle : Subframe.base (Subframe.replyMultiple + kind.tag) ≠ Subframe.replySingle := by
    cases kind <;> decide
  have hbase : Subframe.base (Subframe.replyMultiple + kind.tag) = Subframe.replyMultiple := by
    cases kind <;> decide
  have hkind : Kind.ofTag (Subframe.replyMultiple + kind.tag) = kind := by
    cases kind <;> decide
  rw [parseSubframe, h.read]
  simp only [if_neg hsingle, if_pos hbase, hkind]

theorem parseSubframe_refusal {id : UInt32} (h : Varuint.Spells front id)
    (hid : id = Subframe.writeError ∨ id = Subframe.readError) (rest : List UInt8) :
    parseSubframe (front ++ rest) = parseRefusal rest := by
  have hbase : Subframe.base id ≠ Subframe.replySingle ∧
      Subframe.base id ≠ Subframe.replyMultiple := by
    rcases hid with hid | hid <;> rw [hid] <;> decide
  rw [parseSubframe, h.read]
  simp only [if_neg hbase.1, if_neg hbase.2, if_pos hid]

/-- An identifier outside the range of replies is none of them. -/
theorem parseSubframe_unknown {id : UInt32} (h : Varuint.Spells front id)
    (hid : id < 0x20 ∨ 0x29 < id) (rest : List UInt8) :
    parseSubframe (front ++ rest) = .ok (.stopped (.unknownSubframe id)) := by
  have hrange : id.toNat < 32 ∨ 41 < id.toNat := hid
  have hbase := toNat_base id
  -- The ids of reports are the numbers from 32 to 41, kinds included.
  have hsingle : Subframe.base id ≠ Subframe.replySingle := by
    intro heq
    rw [heq] at hbase
    have hquotient : Subframe.replySingle.toNat / 4 = 8 := rfl
    omega
  have hmultiple : Subframe.base id ≠ Subframe.replyMultiple := by
    intro heq
    rw [heq] at hbase
    have hquotient : Subframe.replyMultiple.toNat / 4 = 9 := rfl
    omega
  have hrefusal : ¬ (id = Subframe.writeError ∨ id = Subframe.readError) := by
    intro heq
    have hnat : id.toNat = 40 ∨ id.toNat = 41 := by
      rcases heq with heq | heq
      · exact Or.inl (congrArg UInt32.toNat heq)
      · exact Or.inr (congrArg UInt32.toNat heq)
    omega
  rw [parseSubframe, h.read]
  simp only [if_neg hsingle, if_neg hmultiple, if_neg hrefusal]

/-- Two numbers are read. -/
theorem parsePair_numbers {a b : UInt32} (h : Varuint.SpellsAll front [a, b])
    (rest : List UInt8) : parsePair (front ++ rest) = .ok (some (a, b), rest) := by
  rcases h.of_cons with ⟨first, behind, hfront, hfirst, hbehind⟩
  rcases hbehind.of_cons with ⟨second, none, hsecond, hspells, hnone⟩
  rw [hfront, hsecond, hnone.of_nil, List.append_nil, List.append_assoc, parsePair, hfirst.read]
  simp only [hspells.read]

/-- Fewer numbers are too few. -/
theorem parsePair_broken {numbers : List UInt32} (h : Varuint.SpellsAll front numbers)
    (hcount : numbers.length < 2) (hrest : Varuint.BrokenOff rest) :
    parsePair (front ++ rest) = .ok (none, []) := by
  have hnil : Varuint.read [] = (.ok none, []) := rfl
  match numbers with
  | [] =>
      rw [h.of_nil, List.nil_append, parsePair, hrest.read]
      simp only [hnil]
  | [a] =>
      rcases h.of_cons with ⟨first, none, hfront, hfirst, hnone⟩
      rw [hfront, hnone.of_nil, List.append_nil, parsePair, hfirst.read]
      simp only [hrest.read]

/-- A malformed one decides. -/
theorem parsePair_malformed {numbers : List UInt32} {bad : List UInt8} {e : Varuint.Error}
    (h : Varuint.SpellsAll front numbers) (hcount : numbers.length < 2)
    (hbad : Varuint.Malformed bad e) (rest : List UInt8) :
    parsePair (front ++ (bad ++ rest)) = .error e := by
  match numbers with
  | [] =>
      rw [h.of_nil, List.nil_append, parsePair, hbad.read]
  | [a] =>
      rcases h.of_cons with ⟨first, none, hfront, hfirst, hnone⟩
      rw [hfront, hnone.of_nil, List.append_nil, parsePair, hfirst.read]
      simp only [hbad.read]

/-- Consecutive registers are the first one and the places behind it. -/
theorem consecutive_eq (start : UInt32) (values : List Value) :
    consecutive start values =
      values.mapIdx fun i v => (start + UInt32.ofNat i, Entry.value v) := by
  induction values generalizing start with
  | nil => rfl
  | cons v values ih =>
      have hnext : ∀ i, start + 1 + UInt32.ofNat i = start + UInt32.ofNat (i + 1) := by
        intro i
        rw [UInt32.ofNat_add, UInt32.add_assoc, UInt32.add_comm 1]
        rfl
      have hfirst : start + UInt32.ofNat 0 = start := UInt32.add_zero start
      simp only [consecutive, ih, hnext, List.mapIdx_cons, hfirst]

/-- A report that fits is read, and what follows it is left. -/
theorem parseSubframe_written {r : Report} (h : r.Written front) (hfits : r.Fits)
    (rest : List UInt8) : parseSubframe (front ++ rest) = .ok (.rows r.rows rest) := by
  rcases h with ⟨spelled, hspelled, hfront⟩
  rcases hspelled.of_cons with ⟨first, behind, hfirst, hid, hoperands⟩
  rw [hfront, hfirst, List.append_assoc, List.append_assoc]
  cases r with
  | single register v =>
      rcases hoperands.of_cons with ⟨number, none, hnumber, hregister, hnone⟩
      rw [parseSubframe_single hid, hnumber, hnone.of_nil, List.append_nil, parseSingle,
        hregister.read]
      simp only [Report.data, Value.decode_encode, Report.rows]
  -- The values are all there and the registers exist, so neither check stops it.
  | multiple kind start count values hkind hcount =>
      have hlength : ¬ (values.flatMap Value.encode ++ rest).length <
          count.toNat * kind.width := by
        rw [List.length_append, Value.length_flatMap_encode hkind, hcount]
        exact Nat.not_lt.mpr (Nat.le_add_right _ _)
      have hrange : ¬ start.toNat + count.toNat > UInt32.size := Nat.not_lt.mpr hfits
      have hvalues := Value.decodeMany_encode hkind rest
      rw [hcount] at hvalues
      rw [parseSubframe_multiple hid, parseMultiple, parsePair_numbers hoperands]
      simp only [Report.data, if_neg hlength, if_neg hrange, hvalues, consecutive_eq, Report.rows]
  | refusal id register code href =>
      rw [parseSubframe_refusal hid href, parseRefusal, parsePair_numbers hoperands]
      simp only [Report.data, List.nil_append, Report.rows]

/-- What reading a sub-frame gives where no report that fits stands. -/
def ending : Except Varuint.Error (Option Stop) → Except Varuint.Error Piece
  | .error e => .error e
  | .ok none => .ok .finished
  | .ok (some why) => .ok (.stopped why)

/-- Where further numbers are expected, it is known how many at most. -/
theorem Expects.cases {id : UInt32} {numbers : List UInt32} (h : Expects (id :: numbers)) :
    (∃ kind : Kind, id = Subframe.replySingle + kind.tag ∧ numbers = []) ∨
      (∃ kind : Kind, id = Subframe.replyMultiple + kind.tag ∧ numbers.length < 2) ∨
      ((id = Subframe.writeError ∨ id = Subframe.readError) ∧ numbers.length < 2) := by
  rcases h with ⟨r, n, more, hnumbers⟩
  rw [Report.numbers, List.cons_append, List.cons.injEq] at hnumbers
  rcases hnumbers with ⟨hid, hoperands⟩
  have hlength := congrArg List.length hoperands
  rw [List.length_append, List.length_cons] at hlength
  -- The id says how many numbers a report has, and at least one is left to come.
  cases r with
  | single register v =>
      have hone : (Report.single register v).operands.length = 1 := rfl
      have hnone : numbers.length = 0 := by omega
      exact Or.inl ⟨v.kind, hid.symm, List.length_eq_zero_iff.mp hnone⟩
  | multiple kind start count values hkind hcount =>
      have htwo : (Report.multiple kind start count values hkind hcount).operands.length = 2 := rfl
      exact Or.inr (Or.inl ⟨kind, hid.symm, by omega⟩)
  | refusal id' register code href =>
      have htwo : (Report.refusal id' register code href).operands.length = 2 := rfl
      refine Or.inr (Or.inr ⟨?_, by omega⟩)
      rw [← hid]
      exact href

/-- Where further numbers are expected, the identifier only says which of them are
    read. So what comes of reading them is what comes of the sub-frame. -/
theorem parseSubframe_of_operands {id : UInt32} {numbers : List UInt32} {bytes : List UInt8}
    {piece : Except Varuint.Error Piece} (hexpects : Expects (id :: numbers))
    (hid : Varuint.Spells front id)
    (hone : numbers = [] → ∀ kind, parseSingle kind bytes = piece)
    (htwo : numbers.length < 2 →
      (∀ kind, parseMultiple kind bytes = piece) ∧ parseRefusal bytes = piece) :
    parseSubframe (front ++ bytes) = piece := by
  rcases hexpects.cases with ⟨kind, heq, hnone⟩ | ⟨kind, heq, hcount⟩ | ⟨heq, hcount⟩
  · rw [heq] at hid
    rw [parseSubframe_single hid, hone hnone]
  · rw [heq] at hid
    rw [parseSubframe_multiple hid, (htwo hcount).1]
  · rw [parseSubframe_refusal hid heq, (htwo hcount).2]

/-- A number that breaks off truncates a report, whichever it is. -/
theorem parseSubframe_brokenOff {id : UInt32} {numbers : List UInt32}
    (hfront : Varuint.SpellsAll front (id :: numbers)) (hexpects : Expects (id :: numbers))
    (h : Varuint.BrokenOff rest) :
    parseSubframe (front ++ rest) = .ok (.stopped .truncated) := by
  rcases hfront.of_cons with ⟨first, behind, hfirst, hid, hnumbers⟩
  rw [hfirst, List.append_assoc]
  refine parseSubframe_of_operands hexpects hid (fun hnone kind => ?_) fun hcount =>
    ⟨fun kind => ?_, ?_⟩
  · rw [hnone] at hnumbers
    rw [hnumbers.of_nil, List.nil_append, parseSingle, h.read]
  · rw [parseMultiple, parsePair_broken hnumbers hcount h]
  · rw [parseRefusal, parsePair_broken hnumbers hcount h]

/-- A number that is malformed is an error in any report. -/
theorem parseSubframe_malformed {id : UInt32} {numbers : List UInt32} {bad : List UInt8}
    {e : Varuint.Error} (hfront : Varuint.SpellsAll front (id :: numbers))
    (hexpects : Expects (id :: numbers)) (h : Varuint.Malformed bad e) (rest : List UInt8) :
    parseSubframe (front ++ (bad ++ rest)) = .error e := by
  rcases hfront.of_cons with ⟨first, behind, hfirst, hid, hnumbers⟩
  rw [hfirst, List.append_assoc]
  refine parseSubframe_of_operands hexpects hid (fun hnone kind => ?_) fun hcount =>
    ⟨fun kind => ?_, ?_⟩
  · rw [hnone] at hnumbers
    rw [hnumbers.of_nil, List.nil_append, parseSingle, h.read]
  · rw [parseMultiple, parsePair_malformed hnumbers hcount h]
  · rw [parseRefusal, parsePair_malformed hnumbers hcount h]

/-- Where the bytes behind the numbers of a report break off, it is truncated. -/
theorem parseSubframe_missing {r : Report} (hfront : Varuint.SpellsAll front r.numbers)
    (h : rest.length < r.data.length) :
    parseSubframe (front ++ rest) = .ok (.stopped .truncated) := by
  rcases hfront.of_cons with ⟨first, behind, hfirst, hid, hoperands⟩
  rw [hfirst, List.append_assoc]
  cases r with
  | single register v =>
      rcases hoperands.of_cons with ⟨number, none, hnumber, hregister, hnone⟩
      rw [Report.data, Value.length_encode] at h
      rw [parseSubframe_single hid, hnumber, hnone.of_nil, List.append_nil, parseSingle,
        hregister.read]
      simp only [Value.decode_short h]
  | multiple kind start count values hkind hcount =>
      rw [Report.data, Value.length_flatMap_encode hkind, hcount] at h
      rw [parseSubframe_multiple hid, parseMultiple, parsePair_numbers hoperands]
      simp only [if_pos h]
  | refusal id register code href =>
      -- A refusal has no bytes behind its numbers.
      exact absurd h (Nat.not_lt_zero _)

/-- A report that is there and does not fit is seen not to fit, since its bytes are
    counted before its registers are. -/
theorem parseSubframe_overflow {r : Report} (hfront : r.Written front) (h : ¬ r.Fits)
    (rest : List UInt8) :
    parseSubframe (front ++ rest) = .ok (.stopped .registerOverflow) := by
  rcases hfront with ⟨spelled, hspelled, hbytes⟩
  rcases hspelled.of_cons with ⟨first, behind, hfirst, hid, hoperands⟩
  rw [hbytes, hfirst, List.append_assoc, List.append_assoc]
  cases r with
  | multiple kind start count values hkind hcount =>
      have hlength : ¬ (values.flatMap Value.encode ++ rest).length <
          count.toNat * kind.width := by
        rw [List.length_append, Value.length_flatMap_encode hkind, hcount]
        exact Nat.not_lt.mpr (Nat.le_add_right _ _)
      have hrange : start.toNat + count.toNat > UInt32.size := Nat.not_le.mp h
      rw [parseSubframe_multiple hid, parseMultiple, parsePair_numbers hoperands]
      simp only [Report.data, if_neg hlength, if_pos hrange]
  -- One register always fits.
  | single register v => exact absurd trivial h
  | refusal id register code href => exact absurd trivial h

/-- Where no report that fits stands, reading ends as the bytes say. -/
theorem parseSubframe_tail {bytes : List UInt8} {verdict : Except Varuint.Error (Option Stop)}
    (h : Tail bytes verdict) : parseSubframe bytes = ending verdict := by
  cases h with
  | finished h =>
      rw [parseSubframe, h.read]
      rfl
  | unknown hfront hid => exact parseSubframe_unknown hfront hid _
  | brokenOff hfront hexpects h => exact parseSubframe_brokenOff hfront hexpects h
  | missing hfront h => exact parseSubframe_missing hfront h
  | overflow hfront h => exact parseSubframe_overflow hfront h _
  | @malformed front bad rest numbers e hfront hexpects h =>
      cases numbers with
      | nil =>
          -- What is malformed is the identifier itself.
          rw [hfront.of_nil, List.nil_append, parseSubframe, h.read]
          rfl
      | cons id numbers => exact parseSubframe_malformed hfront hexpects h rest

/-- There are values of every type. -/
theorem exists_kind (kind : Kind) : ∃ v : Value, v.kind = kind := by
  cases kind with
  | int8 => exact ⟨.int8 0, rfl⟩
  | int16 => exact ⟨.int16 0, rfl⟩
  | int32 => exact ⟨.int32 0, rfl⟩
  | float => exact ⟨.float 0, rfl⟩

theorem expects_nil : Expects [] :=
  ⟨.refusal Subframe.readError 0 0 (Or.inr rfl), _, _, rfl⟩

theorem expects_single (kind : Kind) : Expects [Subframe.replySingle + kind.tag] := by
  rcases exists_kind kind with ⟨v, hv⟩
  refine ⟨.single 0 v, 0, [], ?_⟩
  rw [← hv]
  rfl

theorem expects_multiple (kind : Kind) {numbers : List UInt32} (h : numbers.length < 2) :
    Expects ((Subframe.replyMultiple + kind.tag) :: numbers) := by
  have hnone : ∀ v ∈ ([] : List Value), v.kind = kind := fun _ hv => absurd hv List.not_mem_nil
  match numbers with
  | [] => exact ⟨.multiple kind 0 0 [] hnone rfl, 0, [0], rfl⟩
  | [start] => exact ⟨.multiple kind start 0 [] hnone rfl, 0, [], rfl⟩

theorem expects_refusal {id : UInt32} (hid : id = Subframe.writeError ∨ id = Subframe.readError)
    {numbers : List UInt32} (h : numbers.length < 2) : Expects (id :: numbers) := by
  match numbers with
  | [] => exact ⟨.refusal id 0 0 hid, 0, [0], rfl⟩
  | [register] => exact ⟨.refusal id register 0 hid, 0, [], rfl⟩

/-- A report that fits stands at the front of some bytes. -/
def HasReport (bytes : List UInt8) : Prop :=
  ∃ (r : Report) (front rest : List UInt8), r.Written front ∧ r.Fits ∧ bytes = front ++ rest

theorem single_or_tail {register : UInt32} {spelled : List UInt8}
    (h : Varuint.SpellsAll spelled [Subframe.replySingle + kind.tag, register])
    (rest : List UInt8) :
    HasReport (spelled ++ rest) ∨ ∃ verdict, Tail (spelled ++ rest) verdict := by
  by_cases hlength : kind.width ≤ rest.length
  · rcases Value.exists_value hlength with ⟨v, behind, hv, hrest⟩
    rw [← hv] at h
    refine Or.inl ⟨.single register v, spelled ++ v.encode, behind, ⟨spelled, h, rfl⟩, trivial, ?_⟩
    rw [hrest, List.append_assoc]
  · rcases exists_kind kind with ⟨v, hv⟩
    rw [← hv] at h hlength
    refine Or.inr ⟨_, .missing (r := .single register v) h ?_⟩
    rw [Report.data, Value.length_encode]
    exact Nat.not_le.mp hlength

theorem multiple_or_tail {start count : UInt32} {spelled : List UInt8}
    (h : Varuint.SpellsAll spelled [Subframe.replyMultiple + kind.tag, start, count])
    (rest : List UInt8) :
    HasReport (spelled ++ rest) ∨ ∃ verdict, Tail (spelled ++ rest) verdict := by
  by_cases hlength : count.toNat * kind.width ≤ rest.length
  · rcases Value.exists_values hlength with ⟨values, behind, hcount, hkind, hrest⟩
    have hwritten : (Report.multiple kind start count values hkind hcount).Written
        (spelled ++ values.flatMap Value.encode) := ⟨spelled, h, rfl⟩
    rw [hrest, ← List.append_assoc]
    -- The values are there: rows of a report, or more registers than there are.
    by_cases hfits : start.toNat + count.toNat ≤ UInt32.size
    · exact Or.inl ⟨_, _, behind, hwritten, hfits, rfl⟩
    · exact Or.inr ⟨_, .overflow hwritten hfits⟩
  · -- Any values of that type take as many bytes.
    have hzeros : count.toNat * kind.width ≤
        (List.replicate (count.toNat * kind.width) (0 : UInt8)).length :=
      Nat.le_of_eq List.length_replicate.symm
    rcases Value.exists_values hzeros with ⟨values, behind, hcount, hkind, hrest⟩
    refine Or.inr ⟨_, .missing (r := .multiple kind start count values hkind hcount) h ?_⟩
    rw [Report.data, Value.length_flatMap_encode hkind, hcount]
    exact Nat.not_le.mp hlength

/-- Behind an identifier of a report come all its other numbers, or bytes that
    end the reading. -/
theorem operands_or_tail {id : UInt32} (hid : Varuint.Spells front id) (count : Nat)
    (hexpects : ∀ numbers : List UInt32, numbers.length < count → Expects (id :: numbers))
    (rest : List UInt8) :
    (∃ (numbers : List UInt32) (spelled behind : List UInt8), numbers.length = count ∧
      Varuint.SpellsAll spelled (id :: numbers) ∧ front ++ rest = spelled ++ behind) ∨
    ∃ verdict, Tail (front ++ rest) verdict := by
  cases Varuint.beginsAll count rest with
  | numbers numbers spelled behind hcount h hbytes =>
      refine Or.inl ⟨numbers, front ++ spelled, behind, hcount, .cons hid h, ?_⟩
      rw [hbytes, List.append_assoc]
  | broken numbers spelled behind hcount h hrest hbytes =>
      rw [hbytes, ← List.append_assoc]
      exact Or.inr ⟨_, .brokenOff (.cons hid h) (hexpects numbers hcount) hrest⟩
  | malformed e numbers spelled bad behind hcount h hbad hbytes =>
      rw [hbytes, ← List.append_assoc]
      exact Or.inr ⟨_, .malformed (.cons hid h) (hexpects numbers hcount) hbad⟩

theorem exists_pair {numbers : List UInt32} (h : numbers.length = 2) :
    ∃ a b, numbers = [a, b] := by
  match numbers, h with
  | [a, b], _ => exact ⟨a, b, rfl⟩

/-- Bytes open with a report that fits, or end the reading. -/
theorem report_or_tail (bytes : List UInt8) : HasReport bytes ∨ ∃ verdict, Tail bytes verdict := by
  cases Varuint.begins bytes with
  | broken h => exact Or.inr ⟨_, .finished h⟩
  | malformed e bad rest h hbytes =>
      rw [hbytes]
      exact Or.inr ⟨_, .malformed .nil expects_nil h⟩
  | number id front rest hfront hbytes =>
      rw [hbytes]
      -- The first number is an id: of a value, of several, of a refusal, or unknown.
      rcases id_cases id with ⟨kind, hid⟩ | ⟨kind, hid⟩ | hid | hid
      · have hexpects : ∀ numbers : List UInt32, numbers.length < 1 → Expects (id :: numbers) := by
          intro numbers hcount
          rw [List.length_eq_zero_iff.mp (Nat.lt_one_iff.mp hcount), hid]
          exact expects_single kind
        -- The register may be there, break off or be malformed.
        rcases operands_or_tail hfront 1 hexpects rest with
          ⟨numbers, spelled, behind, hcount, hspelled, hsplit⟩ | htail
        · rcases List.length_eq_one_iff.mp hcount with ⟨register, hnumbers⟩
          rw [hnumbers, hid] at hspelled
          rw [hsplit]
          exact single_or_tail hspelled behind
        · exact Or.inr htail
      · have hexpects : ∀ numbers : List UInt32, numbers.length < 2 → Expects (id :: numbers) := by
          intro numbers hcount
          rw [hid]
          exact expects_multiple kind hcount
        rcases operands_or_tail hfront 2 hexpects rest with
          ⟨numbers, spelled, behind, hcount, hspelled, hsplit⟩ | htail
        · rcases exists_pair hcount with ⟨start, count, hnumbers⟩
          rw [hnumbers, hid] at hspelled
          rw [hsplit]
          exact multiple_or_tail hspelled behind
        · exact Or.inr htail
      · have hexpects : ∀ numbers : List UInt32, numbers.length < 2 → Expects (id :: numbers) :=
          fun numbers hcount => expects_refusal hid hcount
        rcases operands_or_tail hfront 2 hexpects rest with
          ⟨numbers, spelled, behind, hcount, hspelled, hsplit⟩ | htail
        · rcases exists_pair hcount with ⟨register, code, hnumbers⟩
          rw [hnumbers] at hspelled
          refine Or.inl ⟨.refusal id register code hid, spelled, behind, ⟨spelled, hspelled, ?_⟩,
            trivial, hsplit⟩
          exact (List.append_nil spelled).symm
        · exact Or.inr htail
      · exact Or.inr ⟨_, .unknown hfront hid⟩

/-- A tail opens with no report that fits. -/
theorem Tail.not_hasReport {bytes : List UInt8} {verdict : Except Varuint.Error (Option Stop)}
    (h : Tail bytes verdict) : ¬ HasReport bytes := by
  rintro ⟨r, front, rest, hwritten, hfits, hbytes⟩
  have hread := parseSubframe_tail h
  rw [hbytes, parseSubframe_written hwritten hfits rest] at hread
  match verdict with
  | .error _ => simp only [ending, reduceCtorEq] at hread
  | .ok none => simp only [ending, Except.ok.injEq, reduceCtorEq] at hread
  | .ok (some _) => simp only [ending, Except.ok.injEq, reduceCtorEq] at hread

/-- A report takes at least one byte. -/
theorem Report.Written.length_pos {r : Report} (h : r.Written front) : 0 < front.length := by
  rcases h with ⟨spelled, hspelled, hfront⟩
  rcases hspelled.of_cons with ⟨first, behind, hfirst, hid, _⟩
  have hne := List.length_pos_iff.mpr hid.closed.ne_nil
  rw [hfront, hfirst, List.length_append, List.length_append]
  omega

/-- Every payload is a run of reports that fit and a tail. By induction on its
    length, which every report makes smaller. -/
theorem exists_splits (payload : List UInt8) :
    ∃ reports rest verdict, Splits payload reports rest ∧ Tail rest verdict := by
  induction hlength : payload.length using Nat.strongRecOn generalizing payload with
  | ind n ih =>
    rcases report_or_tail payload with ⟨r, front, behind, hwritten, hfits, hbytes⟩ | ⟨verdict, htail⟩
    · have hpos := hwritten.length_pos
      have hless : behind.length < n := by
        rw [← hlength, hbytes, List.length_append]
        omega
      rcases ih behind.length hless behind rfl with ⟨reports, rest, verdict, hsplits, htail⟩
      rw [hbytes]
      exact ⟨r :: reports, rest, verdict, .cons hwritten hfits hsplits, htail⟩
    · exact ⟨[], payload, verdict, .nil payload, htail⟩

theorem Splits.cases {payload rest : List UInt8} {reports : List Report}
    (h : Splits payload reports rest) :
    (reports = [] ∧ rest = payload) ∨
      ∃ front behind r more, payload = front ++ behind ∧ reports = r :: more ∧
        Report.Written r front ∧ r.Fits ∧ Splits behind more rest := by
  cases h with
  | nil rest => exact Or.inl ⟨rfl, rfl⟩
  | cons h hfits hrest => exact Or.inr ⟨_, _, _, _, rfl, rfl, h, hfits, hrest⟩

theorem Splits.length_le {payload rest : List UInt8} {reports : List Report}
    (h : Splits payload reports rest) : rest.length ≤ payload.length := by
  induction h with
  | nil rest => exact Nat.le_refl _
  | cons _ _ _ ih =>
      rw [List.length_append]
      omega

/-- No other run of reports that fit at the front of a payload is longer than
    one that a tail follows. By induction on that one: what the other begins
    with is what is read, so it is as long. -/
theorem Splits.longest {payload rest rest' : List UInt8} {reports reports' : List Report}
    {verdict : Except Varuint.Error (Option Stop)} (h : Splits payload reports rest)
    (htail : Tail rest verdict) (h' : Splits payload reports' rest') :
    reports'.length ≤ reports.length ∧ rest.length ≤ rest'.length := by
  induction h generalizing reports' rest' with
  | nil rest =>
      rcases h'.cases with ⟨hreports, hrest⟩ | ⟨front, behind, r, more, hpayload, -, hr, hfits, -⟩
      · rw [hreports, hrest]
        exact ⟨Nat.le_refl _, Nat.le_refl _⟩
      · -- No report begins where the tail does, so the other one stops there too.
        exact absurd ⟨r, front, behind, hr, hfits, hpayload⟩ htail.not_hasReport
  | @cons front payload rest r reports hr hfits hrest ih =>
      rcases h'.cases with
        ⟨hreports, heq⟩ | ⟨front', behind, r', more, hpayload, hreports, hr', hfits', hmore⟩
      · rw [hreports, heq, List.length_append]
        have hle := hrest.length_le
        exact ⟨Nat.zero_le _, by omega⟩
      · -- What begins with two reports is read in one way, so they are as long.
        have hread := parseSubframe_written hr hfits payload
        rw [hpayload, parseSubframe_written hr' hfits' behind, Except.ok.injEq,
          Piece.rows.injEq] at hread
        rw [hread.2] at hmore
        rcases ih htail hmore with ⟨hcount, hlength⟩
        rw [hreports]
        exact ⟨Nat.succ_le_succ hcount, hlength⟩

/-- What reading into a table gives where only a tail is left. -/
def Reply.closing (table : Table) :
    Except Varuint.Error (Option Stop) → Except Varuint.Error Reply
  | .error e => .error e
  | .ok stop => .ok { table, stop }

theorem parseInto_tail {rest : List UInt8} {verdict : Except Varuint.Error (Option Stop)}
    (h : Tail rest verdict) (table : Table) :
    Reply.parseInto table rest = Reply.closing table verdict := by
  have hread := parseSubframe_tail h
  rw [Reply.parseInto]
  match verdict with
  | .error e =>
      split <;> rename_i hpiece <;>
        simp only [hread, ending, Except.error.injEq, reduceCtorEq] at hpiece
      rw [hpiece, Reply.closing]
  | .ok none =>
      split <;> rename_i hpiece <;>
        simp only [hread, ending, Except.ok.injEq, reduceCtorEq] at hpiece
      rfl
  | .ok (some why) =>
      split <;> rename_i hpiece <;>
        simp only [hread, ending, Except.ok.injEq, Piece.stopped.injEq, reduceCtorEq] at hpiece
      rw [hpiece, Reply.closing]

/-- Reports are read into a table one after another until a tail is left. -/
theorem parseInto_splits {payload rest : List UInt8} {reports : List Report}
    {verdict : Except Varuint.Error (Option Stop)} (h : Splits payload reports rest)
    (htail : Tail rest verdict) (table : Table) :
    Reply.parseInto table payload =
      Reply.closing (table.insertAll (reports.flatMap Report.rows)) verdict := by
  induction h generalizing table with
  | nil rest => exact parseInto_tail htail table
  | @cons front payload rest r reports hr hfits hrest ih =>
      have hread := parseSubframe_written hr hfits payload
      rw [Reply.parseInto]
      split <;> rename_i hpiece <;> rw [hread] at hpiece
      · simp only [reduceCtorEq] at hpiece
      · simp only [Except.ok.injEq, reduceCtorEq] at hpiece
      · simp only [Except.ok.injEq, reduceCtorEq] at hpiece
      · rw [Except.ok.injEq, Piece.rows.injEq] at hpiece
        rw [← hpiece.1, ← hpiece.2, ih htail, List.flatMap_cons, Table.insertAll_append]

/-- What a reader makes of a payload. Every payload is a run of reports that
    fit and a tail. The run is the longest there is, the table holds for each
    register what the last of its reports said and nothing else, and how the
    reading ends is what the tail says. -/
theorem reply_grammar (payload : List UInt8) :
    (∃ reports rest verdict, Splits payload reports rest ∧ Tail rest verdict) ∧
    ∀ reports rest verdict, Splits payload reports rest → Tail rest verdict →
      (∀ reports' rest', Splits payload reports' rest' →
        reports'.length ≤ reports.length ∧ rest.length ≤ rest'.length) ∧
      match verdict with
      | .error e => Reply.parse payload = .error e
      | .ok stop => ∃ table, Reply.parse payload = .ok { table, stop } ∧
          ∀ register, table.get? register = latest (reports.flatMap Report.rows) register := by
  refine ⟨exists_splits payload, ?_⟩
  intro reports rest verdict hsplits htail
  refine ⟨fun reports' rest' h' => hsplits.longest htail h', ?_⟩
  have hparse := parseInto_splits hsplits htail .empty
  match verdict with
  | .error e => exact hparse
  | .ok stop =>
      refine ⟨_, hparse, fun register => ?_⟩
      rw [Table.get?_insertAll, Table.get?_empty, Option.or_none]

end Register

end Multidrop
