import Multidrop.Proofs.Link.Reading
import Multidrop.Proofs.Link.Resync

/-!
# What Is Thrown Away

A header that cannot be trusted is given up on, and what has arrived behind it
is thrown away: the front of the backlog, as long as the window. That much is
taken off the wire whatever stands behind the backlog.

Whether it is counted depends on that. If the throwing away comes to a fault
that is not taken for nothing being there, the fault is what the reception
comes to, and the bytes that were removed before it are not counted, nor is
the header. In every other case both are.

## Main definitions

* `Wire.thrown`: What is thrown away.
* `Wire.CutsShort`: A fault stands where the backlog ends.
* `Reception.Purge`: A header given up on, and what was removed behind it.
* `Reception.purge?`: The purge of a turn.

## Theorems

* `Reception.discard_breaks`: Throwing away that comes to a fault.
* `Reception.step_unreadable`: A length that is no number gives nothing up.
* `Reception.step_purges`: What a turn does that gives a header up.
* `Reception.reading_purge`: What is counted of a purge.
-/

namespace Multidrop

namespace Wire

/-- What is thrown away within a window: the front of the backlog. -/
def thrown (now : Duration) (window : Nat) (w : Wire) : List UInt8 :=
  (w.arrivals.backlog now).take window

/-- Throwing away comes to a fault that is not taken for nothing being there,
    since the backlog ends with it and within the window. -/
def CutsShort (now : Duration) (window : Nat) (w : Wire) : Prop :=
  (w.arrivals.backlog now).length < window ∧ (w.arrivals.beyond now).Breaks now

/-- A wire off which that was taken. -/
def purged (now : Duration) (window : Nat) (w : Wire) : Wire :=
  { w with arrivals := w.arrivals.cleared now window }

theorem coming_purged (now : Duration) (window : Nat) (w : Wire) :
    w.coming = w.thrown now window ++ (w.purged now window).coming :=
  Arrivals.bytes_cleared now window w.arrivals

end Wire

/-- The reason for which a reader of a buffer refuses a header, if it is its
    magic or a length above the limit. -/
def Link.ResyncReason.ofRefusal : Frame.Error → Option Link.ResyncReason
  | .invalidMagic found => some (.badMagic found)
  | .payloadTooLarge length _ => some (.oversizedLength length)
  | _ => none

theorem Link.ResyncReason.ofRefusal_refusal (limits : Frame.Limits)
    (reason : Link.ResyncReason) : ofRefusal (reason.refusal limits) = some reason := by
  cases reason with
  | badMagic found => rfl
  | oversizedLength length => rfl

namespace Reception

/-- A header that was given up on. -/
structure Purge where
  reason : Link.ResyncReason
  /-- What was taken off the wire behind it. -/
  removed : List UInt8
  /-- The fault that the throwing away came to, if it did. -/
  fault? : Option Transport.Fault
  deriving DecidableEq

/-- How many bytes are counted: those that were removed, if no fault came in
    between. -/
def Purge.counted? (p : Purge) : Option Nat :=
  if p.fault?.isNone then some p.removed.length else none

/-- Why bytes are no header that can be trusted. -/
def reason? (limits : Frame.Limits) (taken : List UInt8) : Option Link.ResyncReason :=
  match (Frame.decode limits taken).1 with
  | .error e => Link.ResyncReason.ofRefusal e
  | .ok _ => none

/-- What a turn has done behind a header, if `wire` was there when the header
    had been read. What was removed is what is missing of it after the turn. -/
def Purge.ofTurn (reason : Link.ResyncReason) (wire : Wire)
    (turn : Turn Reception Result × Bus) : Purge where
  reason := reason
  removed := wire.coming.take (wire.coming.length - turn.2.wire.coming.length)
  fault? :=
    match turn.1 with
    | .over (.error (.transport (.io cause))) => some cause
    | _ => none

/-- The purge of a turn, if the bytes it reads make a header that cannot be
    trusted. -/
def purge? (onlyFrom : Option UInt8) (r : Reception) (bus : Bus) : Option Purge :=
  let read := bus.wire.read bus.now r.wants
  (reason? bus.link.config.limits (r.got ++ read.1.taken)).map fun reason =>
    .ofTurn reason read.2 (r.step onlyFrom bus)

variable {limits : Frame.Limits} {onlyFrom : Option UInt8} {r : Reception} {bus : Bus}
  {now : Duration} {window : Nat} {wire : Wire} {taken : List UInt8}
  {reason : Link.ResyncReason}

/-- At the end of the backlog a pass comes to the fault that stands there. -/
theorem readArrived_breaks (want : Nat) (hwindow : window ≠ 0)
    (hnone : wire.arrivals.backlog now = []) (h : (wire.arrivals.beyond now).Breaks now) :
    ∃ cause, readArrived now want wire = (.error cause, wire.purged now window) := by
  rcases h with ⟨moment, cause, later, hbeyond, hdue, hkind⟩
  refine ⟨cause, ?_⟩
  rcases hscript : wire.arrivals with _ | ⟨⟨moment', arrival⟩, later'⟩
  · rw [hscript, Arrivals.beyond] at hbeyond
    cases hbeyond
  · have hdue' : ¬ now < moment' := by
      intro hearly
      rw [hscript, Arrivals.beyond_early hearly, List.cons.injEq, Prod.mk.injEq] at hbeyond
      exact hdue (hbeyond.1.1 ▸ hearly)
    -- Only the fault can stand in front: bytes would be in the backlog, and behind an end
    -- there is nothing to come to.
    cases arrival with
    | data first more =>
        rw [hscript, Arrivals.backlog_data hdue'] at hnone
        cases hnone
    | ended =>
        rw [hscript, Arrivals.beyond, if_neg hdue'] at hbeyond
        cases hbeyond
    | fault cause' =>
        rw [hscript, Arrivals.beyond, if_neg hdue', List.cons.injEq, Prod.mk.injEq,
          Arrival.fault.injEq] at hbeyond
        rw [← hbeyond.1.2] at hkind
        rw [readArrived, Wire.read, hscript, Wire.purged, hscript,
          Arrivals.cleared_due hwindow hdue', ← hbeyond.1.2]
        simp only [if_neg hdue', if_neg hkind]

/-- Where the backlog ends with a fault, all of it is thrown away before the
    fault is met. By induction on what is left of the window. -/
theorem discard_breaks (h : wire.CutsShort now window) :
    ∃ cause, discard now window wire = (.error cause, wire.purged now window) := by
  induction window using Nat.strongRecOn generalizing wire with
  | ind window ih =>
    rcases h with ⟨hless, hbreaks⟩
    have hwindow : window ≠ 0 := Nat.ne_of_gt (Nat.zero_lt_of_lt hless)
    by_cases hnone : wire.arrivals.backlog now = []
    · -- Nothing is left of the backlog, so this pass comes to the fault.
      rcases readArrived_breaks (min window discardChunk) hwindow hnone hbreaks with
        ⟨cause, hread⟩
      refine ⟨cause, ?_⟩
      rw [discard, dif_neg hwindow, hread]
    · -- The pass takes some of the backlog, and the fault still stands behind the rest.
      have hwant : 0 < min window discardChunk := by
        rw [discardChunk]
        omega
      rcases readArrived_front hwant hnone with
        ⟨byte, more, later, hread, hlength, hbacklog, hbeyond, hcleared⟩
      rw [hbacklog, List.length_append, List.length_cons] at hless
      rw [hbeyond] at hbreaks
      have hrest : Wire.CutsShort now (window - (more.length + 1))
          { wire with arrivals := later } :=
        ⟨Nat.lt_sub_of_add_lt (by rw [Nat.add_comm]; exact hless), hbreaks⟩
      rcases ih _ (by omega) hrest with ⟨cause, hdiscard⟩
      refine ⟨cause, ?_⟩
      rw [discard_some hwindow hread, hdiscard, Wire.purged, Wire.purged,
        hcleared window (by omega)]
      rfl

/-- A turn that leaves the wire without what is thrown away has removed it. -/
theorem Purge.ofTurn_eq (reason : Link.ResyncReason) {turn : Turn Reception Result × Bus}
    (h : turn.2.wire = wire.purged now window) :
    ofTurn reason wire turn =
      { ofTurn reason wire turn with removed := wire.thrown now window } := by
  have hremoved : (ofTurn reason wire turn).removed = wire.thrown now window := by
    rw [ofTurn, h, wire.coming_purged now window, List.length_append, Nat.add_sub_cancel,
      List.take_left]
  rw [← hremoved]

/-- Giving up on a header removes what is thrown away, and counts it unless it
    comes to a fault. -/
theorem giveUp_purges (reason : Link.ResyncReason) (bus : Bus) :
    let window := bus.link.config.resyncWindow
    let removed := bus.wire.thrown bus.now window
    (¬ bus.wire.CutsShort bus.now window →
      giveUp reason bus = (.over (.error (.resynchronized reason removed.length)), { bus with
        link := bus.link.resynchronized removed.length
        wire := bus.wire.purged bus.now window }) ∧
      Purge.ofTurn reason bus.wire (giveUp reason bus) = { reason, removed, fault? := none }) ∧
    (bus.wire.CutsShort bus.now window → ∃ cause,
      giveUp reason bus = (.over (.error (.transport (.io cause))), { bus with
        wire := bus.wire.purged bus.now window }) ∧
      Purge.ofTurn reason bus.wire (giveUp reason bus) =
        { reason, removed, fault? := some cause }) := by
  intro window removed
  refine ⟨fun hwhole => ?_, fun hcut => ?_⟩
  · have hcount : removed.length = min window (bus.wire.arrivals.backlog bus.now).length :=
      List.length_take
    -- Nothing breaks off the discard, so it is the minimum of window and backlog.
    have hdiscard := discard_eq bus.now window fun hless hbreaks => hwhole ⟨hless, hbreaks⟩
    have hgive : giveUp reason bus = (.over (.error (.resynchronized reason removed.length)),
        { bus with
          link := bus.link.resynchronized removed.length
          wire := bus.wire.purged bus.now window }) := by
      rw [giveUp, resynchronize, hdiscard, hcount]
      rfl
    refine ⟨hgive, ?_⟩
    rw [hgive, Purge.ofTurn_eq reason rfl]
    rfl
  · -- The fault is handed on before anything is counted.
    rcases discard_breaks hcut with ⟨cause, hdiscard⟩
    have hgive : giveUp reason bus = (.over (.error (.transport (.io cause))),
        { bus with wire := bus.wire.purged bus.now window }) := by
      rw [giveUp, resynchronize, hdiscard]
    refine ⟨cause, hgive, ?_⟩
    rw [hgive, Purge.ofTurn_eq reason rfl]
    rfl

/-! ### Which turns give a header up -/

theorem reason?_of_untrusted (h : Untrusted limits taken reason) :
    reason? limits taken = some reason := by
  have hrefused := Frame.decode_refused (h.refused [])
  rw [List.append_nil] at hrefused
  rw [reason?, hrefused]
  exact Link.ResyncReason.ofRefusal_refusal limits reason

theorem reason?_of_unreadable {cause : Varuint.Error} (h : Unreadable taken cause) :
    reason? limits taken = none := by
  have hrefused := Frame.decode_refused (h.refused limits [])
  rw [List.append_nil] at hrefused
  rw [reason?, hrefused]
  rfl

theorem reason?_of_incomplete (h : Frame.Incomplete limits taken) :
    reason? limits taken = none := by
  rw [reason?, Frame.decode_incomplete h]

theorem reason?_of_form {p : Frame.Form} (h : p.Accepted limits) :
    reason? limits p.bytes = none := by
  have hdecode := Frame.decode_form h []
  rw [List.append_nil] at hdecode
  rw [reason?, hdecode]
  rcases p.verdict_cases limits with hverdict | hverdict
  · rw [hverdict]
    rfl
  · rw [hverdict]
    rfl

/-- A length that is no number leads to nothing else. -/
theorem Comes.eq_unreadable {turn : Turn Reception Result × Bus} {cause : Varuint.Error}
    (hcomes : Comes onlyFrom taken bus turn) (h : Unreadable taken cause) :
    turn = (.over (.error (.frame (.varuint cause))), bus) := by
  have hnone : reason? bus.link.config.limits taken = none := reason?_of_unreadable h
  have hsaid := Frame.decode_refused (h.refused bus.link.config.limits [])
  rw [List.append_nil] at hsaid
  -- What the reader says of these bytes excludes the other outcomes.
  cases hcomes with
  | again next hsound hgot =>
      rw [← hgot, Frame.decode_incomplete hsound.incomplete] at hsaid
      exact absurd (Prod.mk.inj hsaid).1 nofun
  | untrusted reason h' =>
      rw [reason?_of_untrusted h'] at hnone
      exact absurd hnone nofun
  | unreadable cause' h' =>
      have hsaid' := Frame.decode_refused (h'.refused bus.link.config.limits [])
      rw [List.append_nil, hsaid, Prod.mk.injEq, Except.error.injEq,
        Frame.Error.varuint.injEq] at hsaid'
      rw [hsaid'.1]
  | whole p haccepted htaken =>
      have hform := Frame.decode_form haccepted []
      rw [List.append_nil, ← htaken, hsaid] at hform
      rcases p.verdict_cases bus.link.config.limits with hverdict | hverdict
      · rw [hverdict] at hform
        exact absurd (Prod.mk.inj hform).1 nofun
      · rw [hverdict] at hform
        exact absurd (Prod.mk.inj hform).1 nofun

/-- A turn that reads such a length takes nothing more, and counts nothing. -/
theorem step_unreadable (onlyFrom : Option UInt8) {byte : UInt8} {more : List UInt8}
    {cause : Varuint.Error} (hsound : Sound bus.link.config.limits r)
    (hread : bus.wire.read bus.now r.wants = (.ready (byte :: more), wire))
    (hunreadable : Unreadable (r.got ++ byte :: more) cause) :
    r.step onlyFrom bus = (.over (.error (.frame (.varuint cause))), { bus with wire }) ∧
      r.purge? onlyFrom bus = none := by
  have hlength := (bus.wire.read_takes bus.now r.wants).2
  rw [hread] at hlength
  have hcomes : Comes onlyFrom (r.got ++ byte :: more) { bus with wire }
      (r.proceed onlyFrom byte more { bus with wire }) :=
    proceed_comes onlyFrom byte more hsound hlength
  have hover := hcomes.eq_unreadable hunreadable
  refine ⟨?_, ?_⟩
  · rw [step, hread]
    exact hover
  · simp only [purge?, hread, Wire.Outcome.taken, reason?_of_unreadable hunreadable,
      Option.map_none]

/-- A turn that reads a header that cannot be trusted removes what is thrown
    away, whatever the wire does. It counts the header and what was removed
    unless it comes to a fault, and then it counts nothing. -/
theorem step_purges (onlyFrom : Option UInt8) {byte : UInt8} {more : List UInt8}
    (hsound : Sound bus.link.config.limits r)
    (hread : bus.wire.read bus.now r.wants = (.ready (byte :: more), wire))
    (huntrusted : Untrusted bus.link.config.limits (r.got ++ byte :: more) reason) :
    let window := bus.link.config.resyncWindow
    let removed := wire.thrown bus.now window
    (¬ wire.CutsShort bus.now window →
      r.step onlyFrom bus = (.over (.error (.resynchronized reason removed.length)), { bus with
        link := bus.link.resynchronized removed.length
        wire := wire.purged bus.now window }) ∧
      r.purge? onlyFrom bus = some { reason, removed, fault? := none }) ∧
    (wire.CutsShort bus.now window → ∃ cause,
      r.step onlyFrom bus = (.over (.error (.transport (.io cause))), { bus with
        wire := wire.purged bus.now window }) ∧
      r.purge? onlyFrom bus = some { reason, removed, fault? := some cause }) := by
  intro window removed
  have hlength := (bus.wire.read_takes bus.now r.wants).2
  rw [hread] at hlength
  -- The read completed the header, so this turn gives it up.
  have hstep : r.step onlyFrom bus = giveUp reason { bus with wire } := by
    have hcomes : Comes onlyFrom (r.got ++ byte :: more) { bus with wire }
        (r.proceed onlyFrom byte more { bus with wire }) :=
      proceed_comes onlyFrom byte more hsound hlength
    have hgive := hcomes.eq_giveUp huntrusted
    rw [step, hread]
    exact hgive
  have hpurge : r.purge? onlyFrom bus =
      some (.ofTurn reason wire (giveUp reason { bus with wire })) := by
    simp only [purge?, hread, hstep, Wire.Outcome.taken, reason?_of_untrusted huntrusted,
      Option.map_some]
  rcases giveUp_purges reason { bus with wire } with ⟨hwhole, hcut⟩
  rw [hstep, hpurge]
  refine ⟨fun h => ?_, fun h => ?_⟩
  · rcases hwhole h with ⟨hgive, hof⟩
    exact ⟨hgive, congrArg some hof⟩
  · rcases hcut h with ⟨cause, hgive, hof⟩
    exact ⟨cause, hgive, congrArg some hof⟩

/-- What a reading says was thrown away is what is counted of the purge, and
    where there is no purge nothing was. -/
theorem reading_purge (onlyFrom : Option UInt8) (hsound : Sound bus.link.config.limits r) :
    (r.reading? onlyFrom bus).bind Reading.discarded? =
      (r.purge? onlyFrom bus).bind Purge.counted? := by
  have hmoves := step_moves onlyFrom hsound
  -- A turn that reads no bytes has what it had before, which is no header yet.
  have hnothing := reason?_of_incomplete hsound.incomplete
  simp only [reading?, purge?]
  generalize r.step onlyFrom bus = turn at hmoves ⊢
  cases hmoves with
  | waiting hread => simp only [hread, Wire.Outcome.taken, List.append_nil, hnothing,
      Option.map_none, Option.bind_none]
  | interrupted hread hkind => simp only [hread, Wire.Outcome.taken, List.append_nil, hnothing,
      Option.map_none, Option.bind_none]
  | failed hread hkind =>
      simp only [hread, Wire.Outcome.taken, List.append_nil, hnothing, Option.map_none,
        Option.bind_none]
      rfl
  | closed hread =>
      simp only [hread, Wire.Outcome.taken, List.append_nil, hnothing, Option.map_none,
        Option.bind_none]
      rfl
  | @bytes byte more wire turn hread hturn hcomes =>
      simp only [hread, Wire.Outcome.taken]
      generalize r.got ++ byte :: more = taken at hcomes ⊢
      cases hcomes with
      | again next hnext hgot =>
          have hincomplete := hnext.incomplete
          rw [hgot] at hincomplete
          simp only [reason?_of_incomplete hincomplete, Option.map_none, Option.bind_none]
      -- A purge is counted when it is whole, and a reading tells of it just then.
      | untrusted reason huntrusted =>
          rcases giveUp_purges reason { bus with wire } with ⟨hwhole, hcut⟩
          by_cases h : wire.CutsShort bus.now bus.link.config.resyncWindow
          · rcases hcut h with ⟨cause, hgive, hof⟩
            simp only [reason?_of_untrusted huntrusted, Option.map_some, hof]
            rw [hgive]
            rfl
          · rcases hwhole h with ⟨hgive, hof⟩
            simp only [reason?_of_untrusted huntrusted, Option.map_some, hof]
            rw [hgive]
            rfl
      | unreadable cause hunreadable =>
          simp only [reason?_of_unreadable hunreadable, Option.map_none, Option.bind_none]
          rfl
      -- What closes a frame never resynchronizes.
      | whole p haccepted htaken =>
          have hnever := close_ne_resynchronized onlyFrom p.bytes { bus with wire }
          simp only [htaken, reason?_of_form haccepted, Option.map_none, Option.bind_none,
            Option.bind_some]
          rw [Reading.discarded?]
          split
          · rename_i reason discarded hresult
            exact absurd hresult (hnever reason discarded)
          · rfl

end Reception

end Multidrop
