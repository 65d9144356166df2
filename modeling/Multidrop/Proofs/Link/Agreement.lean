import Multidrop.Proofs.Link.Stages
import Multidrop.Proofs.Wire.Flow

/-!
# Receptions and Buffers

A reception takes a frame apart as it comes off the wire, stage by stage, and
looks at its header and its length before the rest is there. A reader of a
buffer looks at the same bytes all at once. The two agree on every stream that
flows: a reception comes to what the reader makes of all that is still to
come, and has taken from the wire what the reader takes from the buffer.

Behind a header that the reader refuses they differ, by design. The reader
leaves it where it is, while a reception has taken it, up to the byte that was
wrong with it, and may throw away more.

As long as a reception is under way, what it has taken is bytes of which the
reader says that something is missing, and a turn either keeps it so or ends
the reception with an answer.

## Main definitions

* `deliver`: The frame that is handed over.
* `Answers`: What a reception has to come to, by what a reader says.
* `Steps`: What a turn can lead to.

## Theorems

* `answers_form`, `answers_untrusted`, `answers_unreadable`: What the answer
  is, by what stands at the front.
* `Answers.append`: More behind it does not change what is answered.
* `step_steps`: A turn keeps the invariant or answers.
-/

namespace Multidrop

namespace Reception

/-- The frame that is handed over: none if it is from someone else than
    expected, or too short to hold a sub-frame. -/
def deliver (onlyFrom : Option UInt8) (f : Frame.Received) : Option Frame.Received :=
  if onlyFrom.any (· ≠ f.source) ∨ f.payload.length < Subframe.minPayload then none else some f

/-- What a reception has to come to on some bytes, and what it has to leave of
    them, by what a reader of a buffer makes of them. There is no answer as
    long as the reader misses something. -/
def Answers (limits : Frame.Limits) (onlyFrom : Option UInt8) (bytes : List UInt8)
    (result : Result) (left : List UInt8) : Prop :=
  match Frame.decode limits bytes with
  | (.ok none, _) => False
  | (.ok (some f), rest) => result = .ok (deliver onlyFrom f) ∧ left = rest
  | (.error (.crcMismatch computed received), rest) =>
    result = .error (.frame (.crcMismatch computed received)) ∧ left = rest
  | (.error (.varuint cause), _) =>
    result = .error (.frame (.varuint cause)) ∧
      left = (Varuint.read (bytes.drop Frame.headerSize)).2
  | (.error (.invalidMagic found), _) =>
    ∃ discarded, result = .error (.resynchronized (.badMagic found) discarded.length) ∧
      bytes.drop Frame.headerSize = discarded ++ left
  | (.error (.payloadTooLarge size _), _) =>
    ∃ discarded, result = .error (.resynchronized (.oversizedLength size) discarded.length) ∧
      (Varuint.read (bytes.drop Frame.headerSize)).2 = discarded ++ left
  | (.error (.invalidAddress _), _) => False

/-- What is answered to a frame that is there whole. -/
def answerTo (limits : Frame.Limits) (onlyFrom : Option UInt8) (p : Frame.Form) : Result :=
  match p.verdict limits with
  | .ok f => .ok (deliver onlyFrom f)
  | .error e => .error (.frame e)

variable {limits : Frame.Limits} {onlyFrom : Option UInt8} {r : Reception}
  {bytes left : List UInt8} {result : Result}

/-- There is one answer to a frame that is there whole, and it leaves what
    follows the frame. -/
theorem answers_form {p : Frame.Form} (h : p.Accepted limits) (rest : List UInt8) :
    Answers limits onlyFrom (p.bytes ++ rest) result left ↔
      result = answerTo limits onlyFrom p ∧ left = rest := by
  rw [Answers, Frame.decode_form h, answerTo]
  rcases p.verdict_cases limits with hverdict | hverdict
  · rw [hverdict]
    exact Iff.rfl
  · rw [hverdict]
    exact Iff.rfl

/-- Behind a header that cannot be trusted any of the bytes may have been
    thrown away. -/
theorem answers_untrusted {header : List UInt8} {reason : Link.ResyncReason}
    (h : Untrusted limits header reason) :
    Answers limits onlyFrom (header ++ bytes) result left ↔
      ∃ discarded, result = .error (.resynchronized reason discarded.length) ∧
        bytes = discarded ++ left := by
  rw [Answers, Frame.decode_refused (h.refused bytes)]
  cases h with
  | magic source destination h => exact Iff.rfl
  | oversized source destination h hlength hrange hlimit =>
      simp only [Link.ResyncReason.refusal, Frame.headerSize, List.cons_append,
        List.drop_succ_cons, List.drop_zero, Varuint.read_closed h hlength]

/-- A length that is no number is answered where that shows. -/
theorem answers_unreadable {header : List UInt8} {cause : Varuint.Error}
    (h : Unreadable header cause) :
    Answers limits onlyFrom (header ++ bytes) result left ↔
      result = .error (.frame (.varuint cause)) ∧ left = bytes := by
  rw [Answers, Frame.decode_refused (h.refused limits bytes)]
  cases h with
  | endless source destination h hlength =>
      simp only [Frame.headerSize, List.cons_append, List.drop_succ_cons, List.drop_zero,
        Varuint.read_endless h hlength]
  | outOfRange source destination h hlength hrange =>
      simp only [Frame.headerSize, List.cons_append, List.drop_succ_cons, List.drop_zero,
        Varuint.read_closed h hlength]

/-- What a reader refuses begins with a header that a reception gives up. -/
theorem refused_cases {e : Frame.Error} (h : Frame.Refused limits bytes e) :
    ∃ header rest, bytes = header ++ rest ∧
      ((∃ reason, Untrusted limits header reason) ∨ ∃ cause, Unreadable header cause) := by
  cases h with
  | magic m0 m1 source destination rest hbytes hmagic =>
      exact ⟨_, rest, hbytes, Or.inl ⟨_, .magic source destination hmagic⟩⟩
  | endless source destination number rest hbytes hopen hlength =>
      exact ⟨_, rest, hbytes, Or.inr ⟨_, .endless source destination hopen hlength⟩⟩
  | outOfRange source destination number rest hbytes hclosed hlength hrange =>
      exact ⟨_, rest, hbytes, Or.inr ⟨_, .outOfRange source destination hclosed hlength hrange⟩⟩
  | oversized source destination number rest hbytes hclosed hlength hrange hlimit =>
      exact ⟨_, rest, hbytes,
        Or.inl ⟨_, .oversized source destination hclosed hlength hrange hlimit⟩⟩

/-- The answer to a frame that is fit to be sent. -/
theorem answerTo_form (limits : Frame.Limits) (onlyFrom : Option UInt8) {f : Frame}
    (h : f.Fits) : answerTo limits onlyFrom f.form = .ok (deliver onlyFrom f.arrived) := by
  rw [answerTo, Frame.verdict_form h]

/-- What a reader waits for has no answer. -/
theorem Answers.decode_ne_none (h : Answers limits onlyFrom bytes result left) :
    (Frame.decode limits bytes).1 ≠ .ok none := by
  intro hnone
  rw [Answers] at h
  generalize Frame.decode limits bytes = call at h hnone
  rcases call with ⟨said, rest⟩
  have hsaid : said = .ok none := hnone
  rw [hsaid] at h
  exact h

/-- More behind it does not change what is answered, and is left with the
    rest. -/
theorem Answers.append (h : Answers limits onlyFrom bytes result left) (more : List UInt8) :
    Answers limits onlyFrom (bytes ++ more) result (left ++ more) := by
  cases Frame.decodes limits bytes with
  -- What more follows stands behind the frame, or behind what was thrown away.
  | whole p rest hbytes haccepted =>
      rw [hbytes, answers_form haccepted] at h
      rw [hbytes, List.append_assoc, answers_form haccepted]
      exact ⟨h.1, congrArg (· ++ more) h.2⟩
  | incomplete hincomplete =>
      have hnone := Frame.decode_incomplete hincomplete
      exact absurd (congrArg Prod.fst hnone) h.decode_ne_none
  | refused e hrefused =>
      rcases refused_cases hrefused with
        ⟨header, rest, hbytes, ⟨reason, huntrusted⟩ | ⟨cause, hunreadable⟩⟩
      · rw [hbytes, answers_untrusted huntrusted] at h
        rcases h with ⟨discarded, hresult, hrest⟩
        rw [hbytes, List.append_assoc, answers_untrusted huntrusted]
        refine ⟨discarded, hresult, ?_⟩
        rw [hrest, List.append_assoc]
      · rw [hbytes, answers_unreadable hunreadable] at h
        rw [hbytes, List.append_assoc, answers_unreadable hunreadable, h.2]
        exact ⟨h.1, rfl⟩

/-- Reading what has arrived takes some bytes from the front, or none. -/
theorem readArrived_flows (now : Duration) {want : Nat} {wire : Wire}
    (h : wire.arrivals.Flow) (hwant : 0 < want) :
    ∃ taken later, readArrived now want wire = (.ok taken, { wire with arrivals := later }) ∧
      wire.arrivals.Gives taken later ∧ taken.length ≤ want := by
  have hreads := Wire.read_reads now h hwant
  unfold readArrived
  generalize wire.read now want = outcome at hreads ⊢
  cases hreads with
  | waiting _ => exact ⟨[], wire.arrivals, rfl, .refl h, Nat.zero_le _⟩
  | interrupted cause later hkind hgives _ =>
      exact ⟨[], later, if_pos (Or.inr hkind), hgives, Nat.zero_le _⟩
  | bytes byte more later hlength hgives =>
      exact ⟨byte :: more, later, rfl, hgives, hlength⟩

/-- What is thrown away is taken from the front and counted. By induction on
    the window. -/
theorem discard_flows (now : Duration) (window : Nat) {wire : Wire}
    (h : wire.arrivals.Flow) :
    ∃ discarded later, discard now window wire =
        (.ok discarded.length, { wire with arrivals := later }) ∧
      wire.arrivals.Gives discarded later := by
  induction window using Nat.strongRecOn generalizing wire with
  | ind window ih =>
    rw [discard]
    split
    · exact ⟨[], wire.arrivals, rfl, .refl h⟩
    · rename_i hwindow
      have hwant : 0 < min window discardChunk := by
        rw [discardChunk]
        omega
      rcases readArrived_flows now h hwant with ⟨taken, later, hread, hgives, hle⟩
      rw [hread]
      cases taken with
      | nil => exact ⟨[], later, rfl, hgives⟩
      -- The chunk took at least one byte, so less of the window is left.
      | cons byte more =>
          have hflow : ({ wire with arrivals := later } : Wire).arrivals.Flow := hgives.flow
          rcases ih (window - (more.length + 1)) (by omega) hflow with
            ⟨discarded, last, hdiscard, hgives'⟩
          refine ⟨byte :: more ++ discarded, last, ?_, hgives.trans hgives'⟩
          simp only [hdiscard, Except.map, List.length_append, List.length_cons]
          rw [Nat.add_comm]

/-- What the bytes of a turn can lead to, where `taken` is all that was taken
    with them. -/
inductive Proceeds (onlyFrom : Option UInt8) (taken : List UInt8) (bus : Bus) :
    Turn Reception Result × Bus → Prop where
  | again (next : Reception) (hsound : Sound bus.link.config.limits next)
      (hgot : next.got = taken) : Proceeds onlyFrom taken bus (.again next, bus)
  | ended (result : Result) (bus' : Bus) (discarded : List UInt8)
      (hgives : bus.wire.arrivals.Gives discarded bus'.wire.arrivals)
      (hanswers : Answers bus.link.config.limits onlyFrom (taken ++ bus.wire.coming) result
        bus'.wire.coming) :
      Proceeds onlyFrom taken bus (.over result, bus')

variable {bus : Bus} {taken : List UInt8}

/-- Giving up ends a reception with what was thrown away. -/
theorem giveUp_proceeds {reason : Link.ResyncReason} (h : bus.wire.arrivals.Flow)
    (hanswers : ∀ discarded left, bus.wire.coming = discarded ++ left →
      Answers bus.link.config.limits onlyFrom (taken ++ bus.wire.coming)
        (.error (.resynchronized reason discarded.length)) left) :
    Proceeds onlyFrom taken bus (giveUp reason bus) := by
  rcases discard_flows bus.now bus.link.config.resyncWindow h with
    ⟨discarded, later, hdiscard, hgives⟩
  rw [giveUp, resynchronize, hdiscard]
  exact .ended _ _ discarded hgives (hanswers discarded _ hgives.bytes)

theorem sort_eq_deliver (onlyFrom : Option UInt8) (f : Frame.Received) (link : Link) :
    (sort onlyFrom f link).1 = deliver onlyFrom f := by
  rw [sort, deliver]
  by_cases hsource : onlyFrom.any (· ≠ f.source) = true
  · rw [if_pos hsource, if_pos (Or.inl hsource)]
  · rw [if_neg hsource]
    by_cases hshort : f.payload.length < Subframe.minPayload
    · rw [if_pos hshort, if_pos (Or.inr hshort)]
    · rw [if_neg hshort, if_neg (not_or.mpr ⟨hsource, hshort⟩)]

/-- Closing a frame answers it and takes nothing more. -/
theorem close_form (onlyFrom : Option UInt8) {p : Frame.Form}
    (h : p.Accepted bus.link.config.limits) :
    (close onlyFrom p.bytes bus).1 = answerTo bus.link.config.limits onlyFrom p ∧
      (close onlyFrom p.bytes bus).2.wire = bus.wire := by
  have hdecode := Frame.decode_form h []
  rw [List.append_nil] at hdecode
  rw [close, hdecode, answerTo]
  rcases p.verdict_cases bus.link.config.limits with hverdict | hverdict
  · rw [hverdict]
    refine ⟨?_, rfl⟩
    simp only [Except.map, sort_eq_deliver]
  · rw [hverdict]
    exact ⟨rfl, rfl⟩

/-- Bytes that were read move a reception on or end it, by what they come
    to. -/
theorem proceed_proceeds (onlyFrom : Option UInt8) (byte : UInt8) (more : List UInt8)
    (hsound : Sound bus.link.config.limits r) (h : bus.wire.arrivals.Flow)
    (hlength : more.length + 1 ≤ r.wants) :
    Proceeds onlyFrom (r.got ++ byte :: more) bus (r.proceed onlyFrom byte more bus) := by
  have hcomes : Comes onlyFrom (r.got ++ byte :: more) bus (r.proceed onlyFrom byte more bus) :=
    proceed_comes onlyFrom byte more hsound hlength
  generalize r.got ++ byte :: more = taken at hcomes ⊢
  generalize r.proceed onlyFrom byte more bus = turn at hcomes ⊢
  cases hcomes with
  | again next hnext hgot => exact .again next hnext hgot
  | untrusted reason huntrusted =>
      refine giveUp_proceeds h fun discarded left hcoming => ?_
      exact (answers_untrusted huntrusted).mpr ⟨discarded, rfl, hcoming⟩
  -- A length that cannot be read ends the call with nothing thrown away.
  | unreadable cause hunreadable =>
      exact .ended _ bus [] (.refl h) ((answers_unreadable hunreadable).mpr ⟨rfl, rfl⟩)
  | whole p haccepted htaken =>
      rcases close_form onlyFrom haccepted with ⟨hresult, hwire⟩
      rw [hresult, htaken]
      refine .ended _ _ [] ?_ ?_
      · rw [hwire]
        exact .refl h
      · rw [hwire]
        exact (answers_form haccepted bus.wire.coming).mpr ⟨rfl, rfl⟩

/-- What a turn can lead to, on a stream that flows. -/
inductive Steps (onlyFrom : Option UInt8) (r : Reception) (bus : Bus) :
    Turn Reception Result × Bus → Prop where
  | waiting (h : bus.wire.arrivals.Due bus.now → bus.wire.arrivals = []) :
      Steps onlyFrom r bus (.waiting, bus)
  | again (next : Reception) (bus' : Bus) (taken : List UInt8)
      (hsound : Sound bus.link.config.limits next) (hgot : next.got = r.got ++ taken)
      (hgives : bus.wire.arrivals.Gives taken bus'.wire.arrivals)
      (hfewer : bus'.wire.arrivals.reads < bus.wire.arrivals.reads) :
      Steps onlyFrom r bus (.again next, bus')
  | ended (result : Result) (bus' : Bus) (taken : List UInt8)
      (hgives : bus.wire.arrivals.Gives taken bus'.wire.arrivals)
      (hfewer : bus'.wire.arrivals.reads < bus.wire.arrivals.reads)
      (hanswers : Answers bus.link.config.limits onlyFrom (r.got ++ bus.wire.coming) result
        bus'.wire.coming) :
      Steps onlyFrom r bus (.over result, bus')

/-- A turn waits, keeps the invariant, or ends the reception with an answer to
    what it has taken and what was still to come. -/
theorem step_steps (onlyFrom : Option UInt8) (hsound : Sound bus.link.config.limits r)
    (h : bus.wire.arrivals.Flow) : Steps onlyFrom r bus (r.step onlyFrom bus) := by
  have hreads := Wire.read_reads bus.now h hsound.wants_pos
  unfold step
  generalize bus.wire.read bus.now r.wants = outcome at hreads ⊢
  cases hreads with
  | waiting hdue => exact .waiting hdue
  -- The interruption is gone from the script, and the reception is where it was.
  | interrupted cause later hkind hgives hfewer =>
      simp only [if_pos hkind]
      exact .again r _ [] hsound (List.append_nil _).symm hgives hfewer
  | bytes byte more later hlength hgives =>
      have hfewer : later.reads < bus.wire.arrivals.reads := by
        have hreads := hgives.reads
        rw [List.length_cons] at hreads
        omega
      let bus' : Bus := { bus with wire := { bus.wire with arrivals := later } }
      have hproceeds : Proceeds onlyFrom (r.got ++ byte :: more) bus'
          (r.proceed onlyFrom byte more bus') :=
        proceed_proceeds onlyFrom byte more hsound hgives.flow hlength
      change Steps onlyFrom r bus (r.proceed onlyFrom byte more bus')
      generalize r.proceed onlyFrom byte more bus' = turn at hproceeds ⊢
      cases hproceeds with
      | again next hnext hgot =>
          exact .again next _ (byte :: more) hnext hgot hgives hfewer
      | ended result last discarded hgives' hanswers =>
          have hreads : last.wire.arrivals.reads + discarded.length ≤ later.reads :=
            hgives'.reads
          refine .ended result last _ (hgives.trans hgives') (by omega) ?_
          -- What this read gave and what the end took with it are one piece of the stream.
          have hcoming : bus.wire.coming = byte :: more ++ Arrivals.bytes later := hgives.bytes
          rw [hcoming, ← List.append_assoc]
          exact hanswers

end Reception

end Multidrop
