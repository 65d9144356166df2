import Multidrop.Proofs.Frame.Decode
import Multidrop.Proofs.Link.Reception
import Multidrop.Proofs.Wire.Flow

/-!
# The Stages of a Reception

A reception takes a frame apart as it comes off the wire, stage by stage. As
long as it is under way, what it has taken is the part of a frame that its
stage says. `Sound` is this invariant, and it holds whatever is on the wire: a
stream that ends or breaks ends the reception, and what has been taken up to
then is a part of a frame all the same.

The bytes of a turn lead to one of four things, by what has been taken with
them. They may be a larger part of a frame. They may complete a header, or a
length, that cannot be trusted, and then what has arrived behind it is thrown
away. They may show that a length is no number. Or they may complete the frame.
`Comes` lists the four, `Moves` adds the turns that read no bytes, and
everything that is known about turns is derived from the two.

## Main definitions

* `got`: What a reception has taken.
* `Sound`: The invariant of every reception.
* `Untrusted`: A header that cannot be trusted, and why.
* `Unreadable`: A header with a length that is no number.
* `Comes`: What the bytes of a turn can lead to.
* `Leads`: Which of these it is, on whatever bus.
* `Moves`: What a turn can lead to.

## Theorems

* `Sound.incomplete`: What a reception has taken is no frame yet.
* `Sound.closes`: The last bytes of a frame make it one that is taken.
* `proceed_leads`, `proceed_comes`: Bytes that were read lead to one of the
  four.
* `step_moves`: A turn reads such bytes, or none.
* `step_sound`: A turn keeps the invariant, whatever is on the wire.
-/

namespace Multidrop

/-- What a reader of a buffer says where a reception gives this reason. -/
def Link.ResyncReason.refusal (limits : Frame.Limits) : Link.ResyncReason → Frame.Error
  | .badMagic found => .invalidMagic found
  | .oversizedLength length => .payloadTooLarge length limits.maxPayload

theorem Link.ResyncReason.refusal_inj {limits : Frame.Limits} {reason reason' : ResyncReason}
    (h : reason.refusal limits = reason'.refusal limits) : reason = reason' := by
  cases reason with
  | badMagic found =>
      cases reason' with
      | badMagic found' => rw [Frame.Error.invalidMagic.inj h]
      | oversizedLength length => simp only [refusal, reduceCtorEq] at h
  | oversizedLength length =>
      cases reason' with
      | badMagic found => simp only [refusal, reduceCtorEq] at h
      | oversizedLength length' => rw [(Frame.Error.payloadTooLarge.inj h).1]

namespace Reception

/-- What a reception has taken. -/
def got : Reception → List UInt8
  | .header got => got
  | .length got _ => got
  | .body got _ => got

/-- The invariant of every reception: what it has taken is the part of a frame
    that its stage says, and it knows as much about it as it should. -/
inductive Sound (limits : Frame.Limits) : Reception → Prop where
  | header {got : List UInt8} (h : got.length < Frame.headerSize) : Sound limits (.header got)
  | length (source destination : UInt8) {number : List UInt8} (h : Varuint.Open number)
      (hlength : number.length < Varuint.maxSize) :
      Sound limits (.length (0x54 :: 0xab :: source :: destination :: number)
        (Varuint.Decoder.holding number))
  | body (source destination : UInt8) {number rest : List UInt8} {missing : Nat}
      (h : limits.Accepts number)
      (hmissing : rest.length + missing = Varuint.value number + Frame.crcSize)
      (hpos : 0 < missing) :
      Sound limits (.body (0x54 :: 0xab :: source :: destination :: (number ++ rest)) missing)

/-- A header, or a header with its length, that cannot be trusted, and why. -/
inductive Untrusted (limits : Frame.Limits) : List UInt8 → Link.ResyncReason → Prop where
  | magic {m0 m1 : UInt8} (source destination : UInt8) (h : ¬ (m0 = 0x54 ∧ m1 = 0xab)) :
      Untrusted limits [m0, m1, source, destination] (.badMagic (Byte.ofLe16 m0 m1))
  | oversized (source destination : UInt8) {number : List UInt8} (h : Varuint.Closed number)
      (hlength : number.length ≤ Varuint.maxSize)
      (hrange : Varuint.value number < UInt32.size)
      (hlimit : limits.maxPayload < Varuint.value number) :
      Untrusted limits (0x54 :: 0xab :: source :: destination :: number)
        (.oversizedLength (Varuint.value number))

/-- A header with a length that is no number, and why it is none. -/
inductive Unreadable : List UInt8 → Varuint.Error → Prop where
  | endless (source destination : UInt8) {number : List UInt8} (h : Varuint.Open number)
      (hlength : number.length = Varuint.maxSize) :
      Unreadable (0x54 :: 0xab :: source :: destination :: number) .overlong
  | outOfRange (source destination : UInt8) {number : List UInt8} (h : Varuint.Closed number)
      (hlength : number.length ≤ Varuint.maxSize)
      (hrange : UInt32.size ≤ Varuint.value number) :
      Unreadable (0x54 :: 0xab :: source :: destination :: number)
        (.outOfRange (UInt64.ofNat (Varuint.value number)))

/-- What the bytes of a turn can lead to, where `taken` is all that was taken
    with them. Only a header that cannot be trusted has to do with what is still
    to be read. -/
inductive Comes (onlyFrom : Option UInt8) (taken : List UInt8) (bus : Bus) :
    Turn Reception Result × Bus → Prop where
  | again (next : Reception) (hsound : Sound bus.link.config.limits next)
      (hgot : next.got = taken) : Comes onlyFrom taken bus (.again next, bus)
  | untrusted (reason : Link.ResyncReason)
      (h : Untrusted bus.link.config.limits taken reason) :
      Comes onlyFrom taken bus (giveUp reason bus)
  | unreadable (cause : Varuint.Error) (h : Unreadable taken cause) :
      Comes onlyFrom taken bus (.over (.error (.frame (.varuint cause))), bus)
  | whole (p : Frame.Form) (h : p.Accepted bus.link.config.limits) (htaken : taken = p.bytes) :
      Comes onlyFrom taken bus
        (.over (close onlyFrom p.bytes bus).1, (close onlyFrom p.bytes bus).2)

/-- Which of the four it is has to do with the bytes and with the longest
    payload that is accepted, and with nothing else on a bus. -/
inductive Leads (limits : Frame.Limits) (onlyFrom : Option UInt8) (taken : List UInt8)
    (proceeds : Bus → Turn Reception Result × Bus) : Prop where
  | again (next : Reception) (hsound : Sound limits next) (hgot : next.got = taken)
      (h : ∀ bus : Bus, bus.link.config.limits.maxPayload = limits.maxPayload →
        proceeds bus = (.again next, bus))
  | untrusted (reason : Link.ResyncReason) (huntrusted : Untrusted limits taken reason)
      (h : ∀ bus : Bus, bus.link.config.limits.maxPayload = limits.maxPayload →
        proceeds bus = giveUp reason bus)
  | unreadable (cause : Varuint.Error) (hunreadable : Unreadable taken cause)
      (h : ∀ bus : Bus, bus.link.config.limits.maxPayload = limits.maxPayload →
        proceeds bus = (.over (.error (.frame (.varuint cause))), bus))
  | whole (p : Frame.Form) (haccepted : p.Accepted limits) (htaken : taken = p.bytes)
      (h : ∀ bus : Bus, bus.link.config.limits.maxPayload = limits.maxPayload →
        proceeds bus = (.over (close onlyFrom p.bytes bus).1, (close onlyFrom p.bytes bus).2))

/-- What a turn can lead to, whatever is on the wire. -/
inductive Moves (onlyFrom : Option UInt8) (r : Reception) (bus : Bus) :
    Turn Reception Result × Bus → Prop where
  | waiting {wire : Wire} (hread : bus.wire.read bus.now r.wants = (.waiting, wire)) :
      Moves onlyFrom r bus (.waiting, { bus with wire })
  /-- The read is made again. -/
  | interrupted {cause : Transport.Fault} {wire : Wire}
      (hread : bus.wire.read bus.now r.wants = (.failed cause, wire))
      (hkind : cause.kind = .interrupted) : Moves onlyFrom r bus (.again r, { bus with wire })
  | failed {cause : Transport.Fault} {wire : Wire}
      (hread : bus.wire.read bus.now r.wants = (.failed cause, wire))
      (hkind : cause.kind ≠ .interrupted) :
      Moves onlyFrom r bus (.over (.error (.transport (.io cause))), { bus with wire })
  | closed {wire : Wire} (hread : bus.wire.read bus.now r.wants = (.ready [], wire)) :
      Moves onlyFrom r bus (.over (.error .closed), { bus with wire })
  | bytes {byte : UInt8} {more : List UInt8} {wire : Wire} {turn : Turn Reception Result × Bus}
      (hread : bus.wire.read bus.now r.wants = (.ready (byte :: more), wire))
      (hturn : turn = r.proceed onlyFrom byte more { bus with wire })
      (hcomes : Comes onlyFrom (r.got ++ byte :: more) { bus with wire } turn) :
      Moves onlyFrom r bus turn

variable {limits : Frame.Limits} {onlyFrom : Option UInt8} {r : Reception} {bus : Bus}

theorem sound_start (limits : Frame.Limits) : Sound limits start :=
  .header (by decide)

/-- A reception that is under way always wants something. -/
theorem Sound.wants_pos (h : Sound limits r) : 0 < r.wants := by
  cases h with
  | header h =>
      rw [wants]
      omega
  | length source destination h hlength => exact Nat.one_pos
  | body source destination h hmissing hpos => exact hpos

/-- What a reception has taken is no frame yet. -/
theorem Sound.incomplete (h : Sound limits r) : Frame.Incomplete limits r.got := by
  cases h with
  | header h => exact .header h
  | length source destination h hlength => exact .length source destination _ rfl h hlength
  | body source destination h hmissing hpos =>
      exact .body source destination _ _ rfl h (by omega)

/-- So where it is part of a frame, something of that frame is still to come. -/
theorem Sound.lacks (h : Sound limits r) {p : Frame.Form} (haccepted : p.Accepted limits)
    {coming rest : List UInt8} (hstream : r.got ++ coming = p.bytes ++ rest) :
    rest.length < coming.length := by
  have hlength := congrArg List.length hstream
  rw [List.length_append, List.length_append] at hlength
  refine Nat.lt_of_not_le fun hle => ?_
  have hprefix : p.bytes <+: r.got :=
    List.prefix_of_prefix_length_le ⟨rest, rfl⟩ ⟨coming, hstream⟩ (by omega)
  rcases hprefix with ⟨behind, hgot⟩
  have hdecode := Frame.decode_form haccepted behind
  rw [hgot, Frame.decode_incomplete h.incomplete] at hdecode
  rcases p.verdict_cases limits with hverdict | hverdict
  · rw [hverdict] at hdecode
    exact absurd (congrArg Prod.fst hdecode) nofun
  · rw [hverdict] at hdecode
    exact absurd (congrArg Prod.fst hdecode) nofun

theorem Untrusted.refused {header : List UInt8} {reason : Link.ResyncReason}
    (h : Untrusted limits header reason) (rest : List UInt8) :
    Frame.Refused limits (header ++ rest) (reason.refusal limits) := by
  cases h with
  | magic source destination h => exact .magic _ _ source destination rest rfl h
  | oversized source destination h hlength hrange hlimit =>
      exact .oversized source destination _ rest rfl h hlength hrange hlimit

theorem Unreadable.refused {header : List UInt8} {cause : Varuint.Error}
    (h : Unreadable header cause) (limits : Frame.Limits) (rest : List UInt8) :
    Frame.Refused limits (header ++ rest) (.varuint cause) := by
  cases h with
  | endless source destination h hlength => exact .endless source destination _ rest rfl h hlength
  | outOfRange source destination h hlength hrange =>
      exact .outOfRange source destination _ rest rfl h hlength hrange

/-- The last bytes of a frame make it one that is taken, with nothing behind
    it. -/
theorem Sound.closes {got behind : List UInt8} (h : Sound limits (.body got behind.length)) :
    ∃ p, got ++ behind = Frame.Form.bytes p ∧ p.Accepted limits := by
  cases h with
  | @body source destination number rest missing h hmissing hpos =>
      have hcomplete : ¬ (rest ++ behind).length < Varuint.value number + Frame.crcSize := by
        rw [List.length_append]
        omega
      rcases Frame.exists_form source destination h hcomplete with
        ⟨p, left, hform, haccepted, hleft⟩
      rw [List.length_append] at hleft
      have hnil : left = [] := List.length_eq_zero_iff.mp (by omega)
      rw [hnil, List.append_nil] at hform
      refine ⟨p, ?_, haccepted⟩
      rw [← hform]
      simp only [List.cons_append, List.append_assoc]

/-- A header that is complete starts with the magic or cannot be trusted. -/
theorem openHeader_leads (limits : Frame.Limits) (onlyFrom : Option UInt8)
    (m0 m1 source destination : UInt8) :
    Leads limits onlyFrom [m0, m1, source, destination]
      (openHeader [m0, m1, source, destination]) := by
  by_cases hmagic : m0 = 0x54 ∧ m1 = 0xab
  · rw [hmagic.1, hmagic.2]
    refine .again _ (.length source destination Varuint.open_nil (by decide)) rfl fun bus _ => ?_
    rw [openHeader, Frame.checkMagic_ok]
    rfl
  · refine .untrusted _ (.magic source destination hmagic) fun bus _ => ?_
    rw [openHeader, Frame.checkMagic_error hmagic]

/-- The next byte of a length leaves it open, closes it, or is one too many. -/
theorem openLength_leads (limits : Frame.Limits) (onlyFrom : Option UInt8)
    (source destination byte : UInt8) {number : List UInt8} (hopen : Varuint.Open number)
    (hlength : number.length < Varuint.maxSize) :
    Leads limits onlyFrom (0x54 :: 0xab :: source :: destination :: (number ++ [byte]))
      (openLength (0x54 :: 0xab :: source :: destination :: (number ++ [byte]))
        ((Varuint.Decoder.holding number).push byte)) := by
  have hcount : (number ++ [byte]).length = number.length + 1 := by
    rw [List.length_append, List.length_singleton]
  by_cases hbyte : byte &&& 0x80 = 0
  · have hclosed := Varuint.Closed.of_open hopen hbyte
    have hshort : (number ++ [byte]).length ≤ Varuint.maxSize := by
      rw [hcount]
      exact hlength
    rw [Varuint.push_closed hbyte hlength, Varuint.verdict]
    by_cases hrange : Varuint.value (number ++ [byte]) < UInt32.size
    · rw [if_pos hrange]
      -- The number is whole and in range: it is refused for its size, or the body begins.
      by_cases hlimit : Varuint.value (number ++ [byte]) > limits.maxPayload
      · refine .untrusted _ (.oversized source destination hclosed hshort hrange hlimit)
          fun bus hmax => ?_
        rw [openLength, UInt32.toNat_ofNat_of_lt' hrange, hmax, if_pos hlimit]
      · have haccepts : limits.Accepts (number ++ [byte]) :=
          ⟨hclosed, hshort, hrange, Nat.not_lt.mp hlimit⟩
        have hbody : Sound limits
            (.body (0x54 :: 0xab :: source :: destination :: (number ++ [byte] ++ []))
              (Varuint.value (number ++ [byte]) + Frame.crcSize)) :=
          .body source destination haccepts (Nat.zero_add _) (Nat.succ_pos _)
        rw [List.append_nil] at hbody
        refine .again _ hbody rfl fun bus hmax => ?_
        rw [openLength, UInt32.toNat_ofNat_of_lt' hrange, hmax, if_neg hlimit]
    · rw [if_neg hrange]
      exact .unreadable _
        (.outOfRange source destination hclosed hshort (Nat.not_lt.mp hrange)) fun bus _ => rfl
  · have hopen' : Varuint.Open (number ++ [byte]) :=
      Varuint.open_append.mpr ⟨hopen, Varuint.open_cons.mpr ⟨hbyte, Varuint.open_nil⟩⟩
    by_cases hfull : number.length + 1 < Varuint.maxSize
    · rw [Varuint.push_open hbyte hfull]
      exact .again _ (.length source destination hopen' (by rw [hcount]; exact hfull)) rfl
        fun bus _ => rfl
    · -- The fifth byte announces another one, which no number has.
      have hend : number.length + 1 = Varuint.maxSize := by omega
      have hpush := Varuint.push_endless hbyte hend
      rcases hstep : (Varuint.Decoder.holding number).push byte with ⟨verdict, decoder⟩
      rw [hstep] at hpush
      simp only at hpush
      rw [hpush]
      exact .unreadable _ (.endless source destination hopen' (hcount.trans hend)) fun bus _ => rfl

/-- Bytes that were read lead to one of the four. By the stage at which they
    are read. -/
theorem proceed_leads {limits : Frame.Limits} (onlyFrom : Option UInt8) (byte : UInt8)
    (more : List UInt8) (hsound : Sound limits r) (hlength : more.length + 1 ≤ r.wants) :
    Leads limits onlyFrom (r.got ++ byte :: more) (r.proceed onlyFrom byte more) := by
  cases hsound with
  | @header got hgot =>
      rw [wants] at hlength
      rw [Reception.got]
      have hcount : (got ++ byte :: more).length = got.length + (more.length + 1) := by
        rw [List.length_append, List.length_cons]
      by_cases hshort : (got ++ byte :: more).length < Frame.headerSize
      · refine .again _ (.header hshort) rfl fun bus _ => ?_
        rw [proceed]
        exact if_pos hshort
      · have hproceed : proceed onlyFrom byte more (.header got) =
            openHeader (got ++ byte :: more) := by
          funext bus
          rw [proceed]
          exact if_neg hshort
        rcases Frame.exists_header hshort with ⟨m0, m1, source, destination, behind, hheader⟩
        -- No more is read than the header lacks, so nothing follows it.
        have hnil : behind = [] := by
          rw [hheader] at hcount hshort
          simp only [List.length_cons, Frame.headerSize] at hcount hshort hlength
          exact List.length_eq_zero_iff.mp (by omega)
        rw [hproceed, hheader, hnil]
        exact openHeader_leads limits onlyFrom m0 m1 source destination
  | @length source destination number hopen hshort =>
      have hnil : more = [] := List.length_eq_zero_iff.mp (Nat.le_zero.mp (by
        rw [wants] at hlength
        omega))
      rw [hnil, Reception.got]
      exact openLength_leads limits onlyFrom source destination byte hopen hshort
  | @body source destination number rest missing haccepts hmissing hpos =>
      rw [wants] at hlength
      rw [Reception.got]
      -- The bytes close the frame, or the body goes on with fewer missing.
      by_cases hlast : missing - (more.length + 1) = 0
      · have hbehind : missing = (byte :: more).length := by
          rw [List.length_cons]
          omega
        have hbody : Sound limits
            (.body (0x54 :: 0xab :: source :: destination :: (number ++ rest))
              (byte :: more).length) := by
          rw [← hbehind]
          exact .body source destination haccepts hmissing hpos
        rcases hbody.closes with ⟨p, hbytes, haccepted⟩
        refine .whole p haccepted hbytes fun bus _ => ?_
        rw [proceed, ← hbytes]
        exact if_pos hlast
      · have hsplit : 0x54 :: 0xab :: source :: destination :: (number ++ rest) ++ byte :: more =
            0x54 :: 0xab :: source :: destination :: (number ++ (rest ++ byte :: more)) := by
          simp only [List.cons_append, List.append_assoc]
        rw [hsplit]
        have hcount : (rest ++ byte :: more).length + (missing - (more.length + 1)) =
            Varuint.value number + Frame.crcSize := by
          rw [List.length_append, List.length_cons]
          omega
        refine .again _ (.body source destination haccepts hcount (by omega)) rfl fun bus _ => ?_
        rw [proceed, hsplit]
        exact if_neg hlast

theorem proceed_comes (onlyFrom : Option UInt8) (byte : UInt8) (more : List UInt8)
    (hsound : Sound bus.link.config.limits r) (hlength : more.length + 1 ≤ r.wants) :
    Comes onlyFrom (r.got ++ byte :: more) bus (r.proceed onlyFrom byte more bus) := by
  cases proceed_leads onlyFrom byte more hsound hlength with
  | again next hnext hgot h =>
      rw [h bus rfl]
      exact .again next hnext hgot
  | untrusted reason huntrusted h =>
      rw [h bus rfl]
      exact .untrusted reason huntrusted
  | unreadable cause hunreadable h =>
      rw [h bus rfl]
      exact .unreadable cause hunreadable
  | whole p haccepted htaken h =>
      rw [h bus rfl]
      exact .whole p haccepted htaken

/-- A header that cannot be trusted leads to nothing else, since a reader of a
    buffer would say something else to it. -/
theorem Comes.eq_giveUp {taken : List UInt8} {turn : Turn Reception Result × Bus}
    {reason : Link.ResyncReason} (hcomes : Comes onlyFrom taken bus turn)
    (h : Untrusted bus.link.config.limits taken reason) : turn = giveUp reason bus := by
  have hsaid := Frame.decode_refused (h.refused [])
  rw [List.append_nil] at hsaid
  cases hcomes with
  | again next hsound hgot =>
      rw [← hgot, Frame.decode_incomplete hsound.incomplete] at hsaid
      simp only [Prod.mk.injEq, reduceCtorEq, false_and] at hsaid
  | untrusted reason' h' =>
      have hsaid' := Frame.decode_refused (h'.refused [])
      rw [List.append_nil, hsaid] at hsaid'
      rw [Prod.mk.injEq, Except.error.injEq] at hsaid'
      rw [Link.ResyncReason.refusal_inj hsaid'.1]
  -- The reader gives one reason for a refusal, and a length that is none is another.
  | unreadable cause h' =>
      have hsaid' := Frame.decode_refused (h'.refused bus.link.config.limits [])
      rw [List.append_nil, hsaid] at hsaid'
      cases reason with
      | badMagic found =>
          simp only [Link.ResyncReason.refusal, Prod.mk.injEq, Except.error.injEq, reduceCtorEq,
            false_and] at hsaid'
      | oversizedLength length =>
          simp only [Link.ResyncReason.refusal, Prod.mk.injEq, Except.error.injEq, reduceCtorEq,
            false_and] at hsaid'
  | whole p haccepted htaken =>
      -- A frame is taken off the buffer, and what is refused is left there.
      have hform := Frame.decode_form haccepted []
      rw [List.append_nil, ← htaken, hsaid] at hform
      have hlength := congrArg (fun call => List.length call.2) hform
      simp only [htaken, Frame.Form.length_bytes, List.length_nil, Frame.headerSize] at hlength
      omega

/-- A turn reads bytes that lead to one of the four, or none. -/
theorem step_moves (onlyFrom : Option UInt8) (hsound : Sound bus.link.config.limits r) :
    Moves onlyFrom r bus (r.step onlyFrom bus) := by
  have hlength := (bus.wire.read_takes bus.now r.wants).2
  unfold step
  split
  · rename_i wire hread
    exact .waiting hread
  · rename_i cause wire hread
    split
    · rename_i hkind
      exact .interrupted hread hkind
    · rename_i hkind
      exact .failed hread hkind
  · rename_i wire hread
    exact .closed hread
  · rename_i byte more wire hread
    rw [hread] at hlength
    exact .bytes hread rfl (proceed_comes onlyFrom byte more hsound hlength)

/-- Whatever is on the wire, a reception that goes on has taken a part of a
    frame. -/
theorem step_sound (onlyFrom : Option UInt8) (hsound : Sound bus.link.config.limits r)
    {next : Reception} (hnext : (r.step onlyFrom bus).1 = .again next) :
    Sound bus.link.config.limits next := by
  have hmoves := step_moves onlyFrom hsound
  generalize r.step onlyFrom bus = turn at hmoves hnext
  cases hmoves with
  | waiting hread => exact absurd hnext nofun
  | interrupted hread hkind => exact Turn.again.inj hnext ▸ hsound
  | failed hread hkind => exact absurd hnext nofun
  | closed hread => exact absurd hnext nofun
  | bytes hread hturn hcomes =>
      cases hcomes with
      | again next' hsound' hgot => exact Turn.again.inj hnext ▸ hsound'
      | untrusted reason huntrusted => exact absurd hnext nofun
      | unreadable cause hunreadable => exact absurd hnext nofun
      | whole p haccepted htaken => exact absurd hnext nofun

end Reception

end Multidrop
