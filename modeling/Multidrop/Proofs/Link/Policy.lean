import Multidrop.Proofs.Link.Resync

/-!
# What the Checksum Policy Decides

Whether checksums are enforced or ignored has no part in how a stream is taken
apart. A reception looks at the checksum when the frame is there whole, and by
then nothing is left to be decided about the bytes: the frame is taken either
way. So two listeners that differ in the policy, and in what they have counted,
go in step, turn by turn, whatever is on the wire. They take the same bytes and
leave the same bytes, and a call comes to the same unless it has taken a frame
whose checksum does not match. Such a frame is refused under the one policy, and
treated like any other under the other one.

## Main definitions

* `Bus.under`: A bus with a policy and counts of its own.
* `Reception.Differs`: What two calls come to that have taken the same.
* `Filtered`: What two runs of calls come to, call by call.
* `Listener.InStep`: The relation between the two listeners.

## Theorems

* `Reception.step_parallel`: Turns under the two policies are in step.
* `Listener.run_inStep`: Runs under the two policies are in step.
-/

namespace Multidrop

/-- A bus whose link treats checksums by a given policy, and has counted what it
    has counted. -/
def Bus.under (policy : Frame.CrcPolicy) (statistics : Link.Statistics) (b : Bus) : Bus :=
  { b with link := { b.link with
      config := { b.link.config with
        limits := { b.link.config.limits with crcPolicy := policy } }
      statistics } }

namespace Reception

/-- What two calls come to that have taken the same bytes, the first where
    checksums are enforced and the second where they are ignored. -/
inductive Differs (limits : Frame.Limits) (onlyFrom : Option UInt8) :
    List UInt8 → Result → Result → Prop where
  | same {taken : List UInt8} (result : Result)
      (h : ∀ p : Frame.Form, p.Accepted limits → taken = p.bytes → p.crc = p.computed) :
      Differs limits onlyFrom taken result result
  | mismatch (p : Frame.Form) (h : p.Accepted limits) (hcrc : p.crc ≠ p.computed) :
      Differs limits onlyFrom p.bytes (.error (.frame (.crcMismatch p.computed p.crc)))
        (.ok (deliver onlyFrom p.frame))

/-- What two turns of one reception come to under the two policies, where
    `stream` is what the reception has taken and all that is still to come. -/
inductive Parallel (limits : Frame.Limits) (onlyFrom : Option UInt8) (r : Reception)
    (stream : List UInt8) : Turn Reception Result × Bus → Turn Reception Result × Bus → Prop where
  | waiting (bus : Bus) (statistics : Link.Statistics)
      (hstream : stream = r.got ++ bus.wire.coming) :
      Parallel limits onlyFrom r stream (.waiting, bus) (.waiting, bus.under .ignore statistics)
  | again (next : Reception) (bus : Bus) (statistics : Link.Statistics)
      (hsound : Sound limits next) (hstream : stream = next.got ++ bus.wire.coming) :
      Parallel limits onlyFrom r stream (.again next, bus)
        (.again next, bus.under .ignore statistics)
  | ended {result result' : Result} (taken : List UInt8) (bus : Bus)
      (statistics : Link.Statistics) (hstream : stream = taken ++ bus.wire.coming)
      (hdiffers : Differs limits onlyFrom taken result result') :
      Parallel limits onlyFrom r stream (.over result, bus)
        (.over result', bus.under .ignore statistics)

variable {limits : Frame.Limits} {onlyFrom : Option UInt8} {r : Reception} {bus : Bus}
  {taken : List UInt8}

/-- Bytes that a reader does not take for one whole frame come to the same. -/
theorem Differs.of_decode {result : Result} {said : Except Frame.Error (Option Frame.Received)}
    (hsaid : (Frame.decode limits taken).1 = said) (hnot : Frame.taken said = false) :
    Differs limits onlyFrom taken result result := by
  refine .same result fun p haccepted htaken => ?_
  have hdecode := Frame.decode_form haccepted []
  rw [List.append_nil, ← htaken] at hdecode
  rw [← hsaid, hdecode, p.taken_verdict limits] at hnot
  exact absurd hnot Bool.noConfusion

/-- Giving up has no part in the policy. -/
theorem resynchronize_under (reason : Link.ResyncReason) (bus : Bus)
    (policy : Frame.CrcPolicy) (statistics : Link.Statistics) : ∃ statistics',
      resynchronize reason (bus.under policy statistics) =
        ((resynchronize reason bus).1,
          (resynchronize reason bus).2.under policy statistics') := by
  unfold resynchronize
  simp only [Bus.under]
  rcases discard bus.now bus.link.config.resyncWindow bus.wire with ⟨cause | discarded, wire⟩
  · exact ⟨statistics, rfl⟩
  · exact ⟨_, rfl⟩

theorem resynchronize_takes (reason : Link.ResyncReason) (bus : Bus) :
    ∃ discarded, bus.wire.coming = discarded ++ (resynchronize reason bus).2.wire.coming := by
  rcases discard_takes bus.now bus.link.config.resyncWindow bus.wire with
    ⟨discarded, hcoming, _, _⟩
  refine ⟨discarded, ?_⟩
  rw [resynchronize]
  generalize discard bus.now bus.link.config.resyncWindow bus.wire = done at hcoming
  rcases done with ⟨cause | counted, wire⟩
  · exact hcoming
  · exact hcoming

/-- A whole frame is refused where its checksum does not match and checksums are
    enforced, and treated alike in all other cases. -/
theorem answerTo_differs {p : Frame.Form} (h : p.Accepted limits)
    (henforce : limits.crcPolicy = .enforce) (onlyFrom : Option UInt8) :
    Differs limits onlyFrom p.bytes (answerTo limits onlyFrom p)
      (answerTo { limits with crcPolicy := .ignore } onlyFrom p) := by
  rw [answerTo, answerTo, Frame.Form.verdict, Frame.Form.verdict, henforce]
  by_cases hcrc : p.crc = p.computed
  · simp only [if_pos hcrc]
    refine .same _ fun q hq hbytes => ?_
    -- Bytes that are one frame have one checksum.
    have hsame := Frame.decode_form h []
    rw [hbytes, Frame.decode_form hq [], Prod.mk.injEq] at hsame
    rw [Frame.Form.verdict, Frame.Form.verdict, henforce, if_pos hcrc] at hsame
    by_cases hcrc' : q.crc = q.computed
    · exact hcrc'
    · rw [if_neg hcrc'] at hsame
      cases hsame.1
  · simp only [if_neg hcrc]
    exact .mismatch p h hcrc

/-- What completes a frame is followed by the same under the two policies, but
    for the answer. -/
theorem close_parallel {p : Frame.Form} (h : p.Accepted bus.link.config.limits)
    (henforce : bus.link.config.limits.crcPolicy = .enforce) (onlyFrom : Option UInt8)
    (statistics : Link.Statistics) :
    Differs bus.link.config.limits onlyFrom p.bytes (close onlyFrom p.bytes bus).1
        (close onlyFrom p.bytes (bus.under .ignore statistics)).1 ∧
      ∃ statistics', (close onlyFrom p.bytes (bus.under .ignore statistics)).2 =
        (close onlyFrom p.bytes bus).2.under .ignore statistics' := by
  have hignored : p.Accepted (bus.under .ignore statistics).link.config.limits :=
    ⟨⟨h.accepts.closed, h.accepts.short, h.accepts.range, h.accepts.limit⟩, h.announced⟩
  rcases close_counts onlyFrom p.bytes bus with ⟨counted, hbus⟩
  rcases close_counts onlyFrom p.bytes (bus.under .ignore statistics) with ⟨counted', hbus'⟩
  rw [(close_form onlyFrom h).1, (close_form onlyFrom hignored).1, hbus, hbus']
  exact ⟨answerTo_differs h henforce onlyFrom, counted', rfl⟩

/-- Bytes that were read lead to the same under the two policies, but for the
    answer to a whole frame. -/
theorem proceed_parallel (onlyFrom : Option UInt8) (byte : UInt8) (more : List UInt8)
    (bus : Bus) (hsound : Sound bus.link.config.limits r) (hlength : more.length + 1 ≤ r.wants)
    (henforce : bus.link.config.limits.crcPolicy = .enforce) (statistics : Link.Statistics) :
    Parallel bus.link.config.limits onlyFrom r (r.got ++ byte :: more ++ bus.wire.coming)
      (r.proceed onlyFrom byte more bus)
      (r.proceed onlyFrom byte more (bus.under .ignore statistics)) := by
  cases proceed_leads onlyFrom byte more hsound hlength with
  -- The policy has no say before a frame is whole.
  | again next hnext hgot h =>
      rw [h bus rfl, h (bus.under .ignore statistics) rfl, ← hgot]
      exact .again next bus statistics hnext rfl
  | untrusted reason huntrusted h =>
      rcases resynchronize_under reason bus .ignore statistics with ⟨statistics', hunder⟩
      rcases resynchronize_takes reason bus with ⟨discarded, hcoming⟩
      rw [h bus rfl, h (bus.under .ignore statistics) rfl, giveUp, giveUp, hunder, hcoming,
        ← List.append_assoc]
      -- What was thrown away has been taken with the header, and is no frame with it.
      have hrefused := huntrusted.refused discarded
      generalize r.got ++ byte :: more ++ discarded = taken at hrefused
      refine .ended taken _ statistics' rfl (.of_decode rfl ?_)
      rw [Frame.decode_refused hrefused, hrefused.not_taken]
  | unreadable cause hunreadable h =>
      rw [h bus rfl, h (bus.under .ignore statistics) rfl]
      have hrefused := hunreadable.refused bus.link.config.limits []
      rw [List.append_nil] at hrefused
      refine .ended _ bus statistics rfl (.of_decode rfl ?_)
      rw [Frame.decode_refused hrefused, hrefused.not_taken]
  -- Here it has: the one refuses what the other delivers unchecked.
  | whole p haccepted htaken h =>
      rcases close_parallel haccepted henforce onlyFrom statistics with
        ⟨hdiffers, statistics', hbus⟩
      rw [h bus rfl, h (bus.under .ignore statistics) rfl, htaken, hbus]
      refine .ended p.bytes _ statistics' ?_ hdiffers
      rw [(close_form onlyFrom haccepted).2]

/-- A turn is the same under the two policies, but for the answer to a whole
    frame. -/
theorem step_parallel (onlyFrom : Option UInt8) (hsound : Sound bus.link.config.limits r)
    (henforce : bus.link.config.limits.crcPolicy = .enforce) (statistics : Link.Statistics) :
    Parallel bus.link.config.limits onlyFrom r (r.got ++ bus.wire.coming) (r.step onlyFrom bus)
      (r.step onlyFrom (bus.under .ignore statistics)) := by
  rcases bus.wire.read_takes bus.now r.wants with ⟨hcoming, hlength⟩
  rcases hread : bus.wire.read bus.now r.wants with ⟨outcome, wire⟩
  rw [hread] at hcoming hlength
  -- Both read the same wire at the same moment.
  have hread' : (bus.under .ignore statistics).wire.read (bus.under .ignore statistics).now
      r.wants = (outcome, wire) := hread
  rw [hcoming, step, hread, step, hread']
  -- A call that ends early has taken a part of a frame.
  have hincomplete : Frame.taken (Frame.decode bus.link.config.limits r.got).1 = false := by
    rw [Frame.decode_incomplete hsound.incomplete]
    rfl
  cases outcome with
  | waiting => exact .waiting { bus with wire } statistics rfl
  | failed cause =>
      simp only
      by_cases hkind : cause.kind = .interrupted
      · rw [if_pos hkind, if_pos hkind]
        exact .again r { bus with wire } statistics hsound rfl
      · rw [if_neg hkind, if_neg hkind]
        exact .ended r.got { bus with wire } statistics rfl (.of_decode rfl hincomplete)
  | ready bytes =>
      cases bytes with
      | nil => exact .ended r.got { bus with wire } statistics rfl (.of_decode rfl hincomplete)
      | cons byte more =>
          have hproceeds := proceed_parallel onlyFrom byte more { bus with wire } hsound hlength
            henforce statistics
          rw [List.append_assoc] at hproceeds
          exact hproceeds

end Reception

/-- What two runs of calls come to, call by call, the first where checksums are
    enforced and the second where they are ignored. Each call has taken the same
    bytes in both, and the same are left. -/
inductive Filtered (limits : Frame.Limits) : List (Option UInt8) → List UInt8 →
    List Reception.Result → List Reception.Result → List UInt8 → Prop where
  | nil (bytes : List UInt8) : Filtered limits [] bytes [] [] bytes
  | cons {onlyFrom : Option UInt8} {calls : List (Option UInt8)} {taken next left : List UInt8}
      {result result' : Reception.Result} {results results' : List Reception.Result}
      (hfirst : Reception.Differs limits onlyFrom taken result result')
      (hrest : Filtered limits calls next results results' left) :
      Filtered limits (onlyFrom :: calls) (taken ++ next) (result :: results)
        (result' :: results') left

namespace Filtered

variable {limits : Frame.Limits} {onlyFrom : Option UInt8} {calls : List (Option UInt8)}
  {bytes left taken : List UInt8} {result result' : Reception.Result}
  {results results' : List Reception.Result}

theorem append (h : Filtered limits calls bytes results results' left) (more : List UInt8) :
    Filtered limits calls (bytes ++ more) results results' (left ++ more) := by
  induction h with
  | nil bytes => exact .nil _
  | cons hfirst hrest ih =>
      rw [List.append_assoc]
      exact .cons hfirst ih

/-- One more call has taken what it has of what the others have left. -/
theorem snoc (h : Filtered limits calls bytes results results' (taken ++ left))
    (hlast : Reception.Differs limits onlyFrom taken result result') :
    Filtered limits (calls ++ [onlyFrom]) bytes (results ++ [result]) (results' ++ [result'])
      left := by
  generalize hnext : taken ++ left = next at h
  induction h with
  | nil bytes =>
      rw [← hnext]
      exact .cons hlast (.nil left)
  | cons hfirst hrest ih => exact .cons hfirst (ih hnext)

end Filtered

namespace Listener

/-- Two listeners that have come equally far under the two policies: the first
    enforces checksums, and the second ignores them. -/
structure InStep (limits : Frame.Limits) (calls : List (Option UInt8)) (stream : List UInt8)
    (l l' : Listener) : Prop where
  enforce : l.bus.link.config.limits.crcPolicy = .enforce
  config : l.bus.link.config.limits = limits
  sound : l.reception.Sound limits
  bus : ∃ statistics, l'.bus = l.bus.under .ignore statistics
  waiting : l'.calls = l.calls
  reception : l'.reception = l.reception
  filtered : ∃ done, calls = done ++ l.calls ∧
    Filtered limits done stream l.results l'.results (l.reception.got ++ l.bus.wire.coming)

variable {limits : Frame.Limits} {calls : List (Option UInt8)} {stream : List UInt8}
  {l l' : Listener}

theorem inStep_turn (h : InStep limits calls stream l l') :
    InStep limits calls stream l.turn l'.turn := by
  rcases h.bus with ⟨statistics, hbus⟩
  rcases h.filtered with ⟨done, hcalls, hfiltered⟩
  have hsound := h.sound
  rw [← h.config] at hsound
  rcases hfirst : l.calls with _ | ⟨onlyFrom, later⟩
  · -- No call is left to take a turn.
    have hturn : l.turn = l := by
      simp only [turn, hfirst]
    have hturn' : l'.turn = l' := by
      simp only [turn, h.waiting, hfirst]
    rw [hturn, hturn']
    exact h
  have hparallel := Reception.step_parallel onlyFrom hsound h.enforce statistics
  have hconfig := (Reception.step_still onlyFrom l.reception l.bus).config
  rw [hfirst] at hcalls
  simp only [turn, h.waiting, hfirst, h.reception, hbus]
  generalize l.reception.got ++ l.bus.wire.coming = stream' at hparallel hfiltered
  generalize l.reception.step onlyFrom l.bus = move at hparallel hconfig
  generalize l.reception.step onlyFrom (l.bus.under .ignore statistics) = move' at hparallel
  cases hparallel with
  | waiting bus statistics' hstream =>
      refine ⟨?_, ?_, h.sound, ⟨statistics', rfl⟩, rfl, rfl, done, hcalls, ?_⟩
      · rw [hconfig]
        exact h.enforce
      · rw [hconfig]
        exact h.config
      · rw [hstream] at hfiltered
        exact hfiltered
  | again next bus statistics' hnext hstream =>
      rw [h.config] at hnext
      refine ⟨?_, ?_, hnext, ⟨statistics', rfl⟩, rfl, rfl, done, hcalls, ?_⟩
      · rw [hconfig]
        exact h.enforce
      · rw [hconfig]
        exact h.config
      · rw [hstream] at hfiltered
        exact hfiltered
  -- The call is answered on both sides, and the answers differ as they may.
  | ended taken bus statistics' hstream hdiffers =>
      rw [hstream] at hfiltered
      rw [h.config] at hdiffers
      refine ⟨?_, ?_, Reception.sound_start limits, ⟨statistics', rfl⟩, rfl, rfl,
        done ++ [onlyFrom], ?_, hfiltered.snoc hdiffers⟩
      · rw [hconfig]
        exact h.enforce
      · rw [hconfig]
        exact h.config
      · rw [hcalls, List.append_assoc, List.singleton_append]

theorem inStep_act (h : InStep limits calls stream l l') (a : Action) :
    InStep limits calls (stream ++ a.brings.bytes) (l.act a) (l'.act a) := by
  cases a with
  | turn =>
      have hnone : Arrivals.bytes Action.turn.brings = [] := rfl
      rw [hnone, List.append_nil]
      exact inStep_turn h
  | outside changed more =>
      rcases h.bus with ⟨statistics, hbus⟩
      rcases h.filtered with ⟨done, hcalls, hfiltered⟩
      refine ⟨h.enforce, h.config, h.sound, ⟨changed.link.statistics, ?_⟩, h.waiting, h.reception,
        done, hcalls, ?_⟩
      · simp only [act, hbus]
        rfl
      · have hcoming : (l.act (.outside changed more)).bus.wire.coming =
            l.bus.wire.coming ++ more.bytes := Arrivals.bytes_append _ _
        rw [hcoming, ← List.append_assoc]
        exact hfiltered.append more.bytes

/-- Whatever is done, the two stay in step. By induction on what is done. -/
theorem run_inStep (h : InStep limits calls stream l l') (actions : List Action) :
    InStep limits calls (stream ++ Arrivals.bytes (actions.flatMap Action.brings))
      (l.run actions) (l'.run actions) := by
  induction actions generalizing stream l l' with
  | nil =>
      have hnone : Arrivals.bytes ([].flatMap Action.brings) = [] := rfl
      rw [hnone, List.append_nil]
      exact h
  | cons a actions ih =>
      rw [List.flatMap_cons, Arrivals.bytes_append, ← List.append_assoc]
      exact ih (inStep_act h a)

theorem inStep_start (bus : Bus) (calls : List (Option UInt8))
    (statistics statistics' : Link.Statistics) :
    InStep (bus.under .enforce statistics).link.config.limits calls bus.wire.coming
      (start (bus.under .enforce statistics) calls)
      (start (bus.under .ignore statistics') calls) where
  enforce := rfl
  config := rfl
  sound := Reception.sound_start _
  bus := ⟨statistics', rfl⟩
  waiting := rfl
  reception := rfl
  filtered := ⟨[], rfl, .nil _⟩

end Listener

end Multidrop
