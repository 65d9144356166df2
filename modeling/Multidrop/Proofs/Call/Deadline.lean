import Multidrop.Proofs.Call.Query
import Multidrop.Proofs.Call.Waiting
import Multidrop.Proofs.Wire.Moments

/-!
# Queries and Their Deadline

A query waits for the first frame from its device that is long enough to hold
a sub-frame, and lets all others pass. Its deadline is set when the request has
been sent and never moves, however many frames pass by.

What a query comes to on a stream of frames can be computed from the frames and
the moments at which they are there. That is what `Query.outcome` does, frame by
frame, and no turn of the query changes it: a turn that reads leaves the moments
of what is still to come alone, a wait ends no later than with the next arrival,
and a frame that passes by is the first step of the computation.

A query without any time, whose deadline is the moment at which it begins to
wait, takes the first frame that is there and looks at no other. So it can miss a
frame that is there as well, behind one that is of no use.

## Main definitions

* `Frame.Form.Serves`: A frame a query waits for.
* `Arrivals.there`: When a frame is there whole.
* `Query.outcome`: What a query comes to.
* `Query.Asking`: The invariant of a query.

## Theorems

* `Query.asking_advances`: A turn keeps the invariant or ends the query.
* `Query.query_outcome`: Every query comes to its outcome.
* `Query.query_concludes`: It ends with the right frame, and in time.
* `Query.stray_before_reply`: Without any time, another frame is in the way.
-/

namespace Multidrop

/-- A frame a query waits for: from its device, and long enough to hold a
    sub-frame. -/
def Frame.Form.Serves (source : UInt8) (p : Frame.Form) : Prop :=
  p.frame.source = source ∧ Subframe.minPayload ≤ p.payload.length

instance (source : UInt8) (p : Frame.Form) : Decidable (p.Serves source) :=
  inferInstanceAs (Decidable (_ ∧ _))

/-- When a frame is there whole, of which nothing is left but the frames that
    follow it. -/
def Arrivals.there (script : Arrivals) (following : List Frame.Form) : Duration :=
  script.settled (following.flatMap Frame.Form.bytes).length

namespace Reception

variable {limits : Frame.Limits} {source : UInt8} {p : Frame.Form}

theorem answerTo_serves (hverdict : p.verdict limits = .ok p.frame) (h : p.Serves source) :
    answerTo limits (some source) p = .ok (some p.frame) := by
  have hlong : ¬ p.frame.payload.length < Subframe.minPayload := Nat.not_lt.mpr h.2
  rw [answerTo, hverdict]
  simp only [deliver, Option.any_some, h.1, ne_eq, not_true_eq_false, decide_false,
    Bool.false_eq_true, hlong, or_self, if_false]

theorem answerTo_of_not_serves (hverdict : p.verdict limits = .ok p.frame)
    (h : ¬ p.Serves source) : answerTo limits (some source) p = .ok none := by
  rw [answerTo, hverdict]
  simp only [deliver, Option.any_some]
  rw [if_pos]
  by_cases hsource : p.frame.source = source
  · exact Or.inr (Nat.not_le.mp fun hlong => h ⟨hsource, hlong⟩)
  · exact Or.inl (decide_eq_true (Ne.symm hsource))

end Reception

namespace Query

/-- What a query comes to that has begun to wait by `now`, and when, by the
    frames that are still to come. `early` says whether there was time left when
    the query began to wait for the first of them. -/
def outcome (source : UInt8) (due : Duration) (script : Arrivals) :
    Bool → Duration → List Frame.Form → Call.Result × Duration
  | _, _, [] => (.ok (.reply {}), due)
  | early, now, p :: rest =>
    let moment := max now (script.there rest)
    if due < moment then (.ok (.reply {}), due)
    else if p.Serves source then (Call.parsed p.payload, moment)
    else if early then outcome source due script (moment < due) moment rest
    else (.ok (.reply {}), due)

variable {source : UInt8} {due now : Duration} {script script' : Arrivals} {early : Bool}
  {p : Frame.Form} {forms rest skipped : List Frame.Form}

/-! ### What the outcome is -/

theorem outcome_late (h : due < max now (script.there rest)) :
    outcome source due script early now (p :: rest) = (.ok (.reply {}), due) :=
  if_pos h

theorem outcome_serves (h : max now (script.there rest) ≤ due) (hserves : p.Serves source) :
    outcome source due script early now (p :: rest) =
      (Call.parsed p.payload, max now (script.there rest)) := by
  rw [outcome]
  simp only [if_neg (Nat.not_lt.mpr h), if_pos hserves]

theorem outcome_passes (h : max now (script.there rest) ≤ due) (hserves : ¬ p.Serves source) :
    outcome source due script true now (p :: rest) =
      outcome source due script (max now (script.there rest) < due) (max now (script.there rest))
        rest := by
  rw [outcome]
  simp only [if_neg (Nat.not_lt.mpr h), if_neg hserves, if_true]

/-- Where the deadline had come before, there is only one frame to look at. -/
theorem outcome_hasty (hserves : ¬ p.Serves source) :
    outcome source due script false now (p :: rest) = (.ok (.reply {}), due) := by
  rw [outcome]
  simp only [if_neg hserves, Bool.false_eq_true, if_false, ite_self]

/-- Only what is still to come matters. By induction on the frames. -/
theorem outcome_script
    (h : ∀ following, max now (script.there following) = max now (script'.there following)) :
    outcome source due script early now forms = outcome source due script' early now forms := by
  -- Moments that are the same from now on stay so.
  suffices hlater : ∀ later, now ≤ later → outcome source due script early later forms =
      outcome source due script' early later forms from hlater now (Nat.le_refl _)
  induction forms generalizing early with
  | nil => exact fun later _ => rfl
  | cons p rest ih =>
      intro later hlater
      have hsame : max later (script.there rest) = max later (script'.there rest) := by
        rw [← Nat.max_eq_left hlater, Nat.max_assoc, h rest, ← Nat.max_assoc]
      rw [outcome, outcome, hsame]
      simp only [ih _ (Nat.le_trans hlater (Nat.le_max_left _ _))]

/-- As long as the first frame is not there, not even the clock matters. -/
theorem outcome_later {later : Duration} (hnow : now ≤ later)
    (h : ∀ p rest, forms = p :: rest → later ≤ script.there rest) :
    outcome source due script early now forms = outcome source due script early later forms := by
  cases forms with
  | nil => rfl
  | cons p rest =>
      have hthere := h p rest rfl
      rw [outcome, outcome, Nat.max_eq_right hthere,
        Nat.max_eq_right (Nat.le_trans hnow hthere)]

theorem outcome_bounds (h : now ≤ due) :
    now ≤ (outcome source due script early now forms).2 ∧
      (outcome source due script early now forms).2 ≤ due := by
  induction forms generalizing early now with
  | nil => exact ⟨h, Nat.le_refl _⟩
  | cons p rest ih =>
      -- One case for each clause of the computation.
      by_cases hlate : due < max now (script.there rest)
      · rw [outcome_late hlate]
        exact ⟨h, Nat.le_refl _⟩
      have hthere := Nat.not_lt.mp hlate
      by_cases hserves : p.Serves source
      · rw [outcome_serves hthere hserves]
        exact ⟨Nat.le_max_left _ _, hthere⟩
      cases early with
      | true =>
          rw [outcome_passes hthere hserves]
          -- The computation goes on from a moment that is no earlier and still within the limit.
          exact (ih hthere).imp_left (Nat.le_trans (Nat.le_max_left _ _))
      | false =>
          rw [outcome_hasty hserves]
          exact ⟨h, Nat.le_refl _⟩

/-- What stands before a frame is there no later than the frame. -/
theorem there_append (script : Arrivals) (skipped rest : List Frame.Form) :
    script.there (skipped ++ rest) ≤ script.there rest := by
  refine Arrivals.settled_antitone ?_
  rw [List.flatMap_append, List.length_append]
  exact Nat.le_add_left _ _

/-- The first frame that serves is the answer, if it is there before the
    deadline. By induction on the frames that pass by. -/
theorem outcome_answered (hforms : forms = skipped ++ p :: rest)
    (hskipped : ∀ q ∈ skipped, ¬ q.Serves source) (hserves : p.Serves source)
    (hthere : max now (script.there rest) ≤ due)
    (htime : (early = true ∧ max now (script.there rest) < due) ∨ skipped = []) :
    outcome source due script early now forms =
      (Call.parsed p.payload, max now (script.there rest)) := by
  rw [hforms]
  clear hforms
  induction skipped generalizing early now with
  -- On the frames skipped: each is there before the limit, so it only moves the moment.
  | nil => exact outcome_serves hthere hserves
  | cons q skipped ih =>
      rcases htime with ⟨hearly, hbefore⟩ | hnone
      · -- The frame in front is there no later than the one that serves.
        have hsooner : script.there (skipped ++ p :: rest) ≤ script.there rest := by
          refine Nat.le_trans (there_append script skipped (p :: rest)) ?_
          exact there_append script [p] rest
        have hmoment : max (max now (script.there (skipped ++ p :: rest))) (script.there rest) =
            max now (script.there rest) := by
          rw [Nat.max_assoc, Nat.max_eq_right hsooner]
        have hpassed : max now (script.there (skipped ++ p :: rest)) < due := by
          refine Nat.lt_of_le_of_lt (Nat.max_le.mpr ⟨Nat.le_max_left _ _, ?_⟩) hbefore
          exact Nat.le_trans hsooner (Nat.le_max_right _ _)
        rw [hearly, List.cons_append,
          outcome_passes (Nat.le_of_lt hpassed) (hskipped q List.mem_cons_self)]
        rw [ih (fun q' hq' => hskipped q' (List.mem_cons_of_mem _ hq')) (hmoment ▸ hthere)
          (Or.inl ⟨decide_eq_true hpassed, hmoment ▸ hbefore⟩), hmoment]
      · exact absurd hnone (List.cons_ne_nil _ _)

/-- Where no frame that serves is there by the deadline, there is no answer. By
    induction on the frames. -/
theorem outcome_empty (hnone : ∀ skipped p rest, forms = skipped ++ p :: rest →
      p.Serves source → due < script.there rest) :
    outcome source due script early now forms = (.ok (.reply {}), due) := by
  induction forms generalizing early now with
  | nil => rfl
  | cons p rest ih =>
      by_cases hlate : due < max now (script.there rest)
      · exact outcome_late hlate
      have hthere := Nat.not_lt.mp hlate
      have hserves : ¬ p.Serves source := by
        intro hserves
        exact hlate (Nat.lt_of_lt_of_le (hnone [] p rest rfl hserves) (Nat.le_max_right _ _))
      cases early with
      | true =>
          rw [outcome_passes hthere hserves]
          exact ih fun skipped q following hrest =>
            hnone (p :: skipped) q following (by rw [hrest, List.cons_append])
      | false => exact outcome_hasty hserves

/-! ### The invariant -/

variable {id : Nat} {c c' : Call} {bus bus' drained : Bus} {move : Call.Move}
  {request : List UInt8} {r : Reception} {d : Drain} {answer : Call.Result × Duration}

/-- The invariant of a query that waits for frames, of which some have passed by
    and `forms` are still to come. -/
structure Asking (c : Call) (due : Duration) (early : Bool) (r : Reception)
    (forms : List Frame.Form) (c' : Call) (bus : Bus) : Prop where
  stage : c' = { c with stage := .receiving (some due) early 0 r }
  early : early = false → due ≤ bus.now
  before : bus.now ≤ due
  sound : r.Sound bus.link.config.limits
  flow : bus.wire.arrivals.Flow
  stream : r.got ++ bus.wire.coming = forms.flatMap Frame.Form.bytes
  accepted : ∀ p ∈ forms, p.Accepted bus.link.config.limits
  checked : ∀ p ∈ forms, p.verdict bus.link.config.limits = .ok p.frame

/-- A query is on its way to its answer. -/
def Bound (c : Call) (answer : Call.Result × Duration) (due : Duration) (_ : List Hearing)
    (c' : Call) (bus : Bus) : Prop :=
  ∃ early r forms, Asking c due early r forms c' bus ∧
    outcome c.client.destination due bus.wire.arrivals early bus.now forms = answer

/-- A query ends with its answer. -/
def Comes (answer : Call.Result × Duration) (_ : List Hearing) (move : Call.Move) : Prop :=
  Call.ended move.1 = some answer.1 ∧ move.2.now = answer.2

theorem lost_of_query (htask : c.task = .query request) (taken : Nat) (bus : Bus) :
    c.lost taken bus = c.handOn (.ok (.reply {})) bus := by
  rw [Call.lost, htask]

theorem takeFrame_of_query (htask : c.task = .query request) (taken : Nat) (f : Frame.Received)
    (bus : Bus) : c.takeFrame taken f bus = c.takeReply f.payload bus := by
  rw [Call.takeFrame, htask]

theorem received_none_of_query (htask : c.task = .query request) (early : Bool) (taken : Nat)
    (bus : Bus) : c.received (some due) early taken (.ok none) bus =
      if early then c.await (some due) taken bus else c.handOn (.ok (.reply {})) bus := by
  rw [Call.received]
  simp only [htask, lost_of_query htask]

theorem onlyFrom_of_query (htask : c.task = .query request) :
    c.onlyFrom = some c.client.destination := by
  rw [Call.onlyFrom, htask]

/-- What follows a reply does not depend on the call. -/
theorem takeReply_leaves {payload : List UInt8}
    (hafter : c.after (c.takeReply payload bus).1 = some c') : c'.isReceiving = false := by
  rw [Call.takeReply] at hafter
  split at hafter
  · exact absurd hafter Call.after_over_ne
  · exact absurd hafter Call.after_over_ne

theorem takeReply_now (c : Call) (payload : List UInt8) (bus : Bus) :
    (c.takeReply payload bus).2.now = bus.now := by
  rw [Call.takeReply]
  split
  · rfl
  · rfl

/-- A query hears the next frame, as soon as that is there. -/
theorem Asking.hears (h : Asking c due early r forms c' bus) {result : Reception.Result}
    (hstep : r.step (some source) bus = (.over result, bus')) :
    ∃ p rest, forms = p :: rest ∧
      result = Reception.answerTo bus.link.config.limits (some source) p ∧
      bus.wire.arrivals.there rest ≤ bus.now ∧ bus'.wire.arrivals.Flow ∧
      bus'.wire.coming = rest.flatMap Frame.Form.bytes := by
  have hsteps := Reception.step_steps (some source) h.sound h.flow
  have hsettled := fun left => Reception.step_settled (some source) h.sound left
  rw [hstep] at hsteps hsettled
  cases hsteps with
  | ended result bus' taken hgives hfewer hanswers =>
      rw [h.stream] at hanswers
      cases forms with
      | nil => exact absurd rfl hanswers.decode_ne_none
      | cons p rest =>
          rw [List.flatMap_cons, Reception.answers_form (h.accepted p List.mem_cons_self)]
            at hanswers
          refine ⟨p, rest, rfl, hanswers.1, ?_, hgives.flow, hanswers.2⟩
          -- Nothing is left of the frame, so it does not have to come any more.
          have hnone : bus'.wire.arrivals.there rest = 0 := by
            refine Arrivals.settled_of_le (Nat.le_of_eq ?_)
            exact congrArg List.length hanswers.2
          have hmoment := hsettled (rest.flatMap Frame.Form.bytes).length
          rw [← Arrivals.there, hnone, Nat.max_eq_left (Nat.zero_le _)] at hmoment
          rw [hmoment]
          exact Nat.le_max_right _ _

/-- Where a query has to wait, the next frame is not there. -/
theorem Asking.lacks (h : Asking c due early r forms c' bus) (hforms : forms = p :: rest)
    (hidle : bus.wire.arrivals.Idle bus.now) : bus.now < bus.wire.arrivals.there rest := by
  have hstream := h.stream
  rw [hforms, List.flatMap_cons] at hstream
  have haccepted := h.accepted p (by rw [hforms]; exact List.mem_cons_self)
  exact Arrivals.settled_idle hidle (h.sound.lacks haccepted hstream)

/-- A query that looks at the clock at its deadline goes without an answer. -/
theorem Asking.misses (h : Asking c due early r forms c' bus)
    (hidle : bus.wire.arrivals.Idle bus.now) (hpassed : due ≤ bus.now) :
    outcome source due bus.wire.arrivals early bus.now forms = (.ok (.reply {}), bus.now) := by
  have hreached : bus.now = due := Nat.le_antisymm h.before hpassed
  cases hforms : forms with
  | nil => rw [outcome, hreached]
  | cons p rest =>
      have hlacks := h.lacks hforms hidle
      rw [outcome_late, hreached]
      exact Nat.lt_of_lt_of_le (hreached ▸ hlacks) (Nat.le_max_right _ _)

/-- Waiting does not change what a query comes to, if it is looked at in time. -/
theorem Asking.later (h : Asking c due early r forms c' bus)
    (hidle : bus.wire.arrivals.Idle bus.now) (hbefore : bus.now < due) {later : Bus}
    (hprompt : c'.Prompt bus later) :
    Asking c due early r forms c' later ∧
      outcome source due later.wire.arrivals early later.now forms =
        outcome source due bus.wire.arrivals early bus.now forms := by
  have hdue : due ∈ c'.wakes := by
    rw [h.stage]
    exact List.mem_append_right _ (List.mem_singleton.mpr rfl)
  -- Waiting leaves the link and the wire alone; only the clock is another.
  refine ⟨⟨h.stage, ?_, hprompt.wakes due hdue hbefore, ?_, ?_, ?_, ?_, ?_⟩, ?_⟩
  · exact fun hlate => absurd (h.early hlate) (Nat.not_le.mpr hbefore)
  · rw [hprompt.link]
    exact h.sound
  · rw [hprompt.wire]
    exact h.flow
  · rw [hprompt.wire]
    exact h.stream
  · rw [hprompt.link]
    exact h.accepted
  · rw [hprompt.link]
    exact h.checked
  · rw [hprompt.wire]
    refine (outcome_later (Nat.le_of_lt hprompt.after) fun p rest hforms => ?_).symm
    -- The clock has not gone past the first arrival, and the frame has to wait for it.
    have hstream := h.stream
    rw [hforms, List.flatMap_cons] at hstream
    have hmissing := h.sound.lacks (h.accepted p (by rw [hforms]; exact List.mem_cons_self))
      hstream
    have harrives := hprompt.arrives
    rw [Wire.coming] at hmissing
    rw [Arrivals.there]
    cases harrivals : bus.wire.arrivals with
    | nil =>
        rw [harrivals] at hmissing
        -- With nothing to arrive any more, no byte of the frame can be missing.
        exact absurd hmissing (Nat.not_lt_zero _)
    | cons entry following =>
        rw [harrivals] at hmissing harrives hidle
        exact Nat.le_trans (harrives entry rfl (hidle entry.1 rfl))
          (Arrivals.settled_first hmissing)

/-- What is heard ends a query with its answer, or is a frame that passes by. -/
theorem Asking.received_advances (htask : c.task = .query request)
    (h : Asking c due early r forms c' bus)
    (houtcome : outcome c.client.destination due bus.wire.arrivals early bus.now forms = answer)
    {result : Reception.Result} {log : List Hearing}
    (hstep : r.step (some c.client.destination) bus = (.over result, bus'))
    (hless : bus'.wire.arrivals.weight < bus.wire.arrivals.weight ∨ result = .error .closed) :
    Call.Advances id (Comes answer) (Bound c answer) due log c' bus
      (c'.received (some due) early 0 result bus') := by
  have htask' : c'.task = .query request := by
    rw [h.stage]
    exact htask
  have hstill := r.step_still (some c.client.destination) bus
  have hsettled := fun left => Reception.step_settled (some c.client.destination) h.sound left
  rw [hstep] at hstill hsettled
  rcases h.hears hstep with ⟨p, rest, hforms, hresult, hthere, hflow, hcoming⟩
  have hmoment : max bus.now (bus.wire.arrivals.there rest) = bus.now := Nat.max_eq_left hthere
  have hnow : max bus.now (bus.wire.arrivals.there rest) ≤ due := by
    rw [hmoment]
    exact h.before
  have hverdict := h.checked p (by rw [hforms]; exact List.mem_cons_self)
  rw [hforms] at houtcome
  -- The frame the reception read is the first one left, and it serves or passes by.
  by_cases hserves : p.Serves c.client.destination
  · rw [outcome_serves hnow hserves, hmoment] at houtcome
    rw [hresult, Reception.answerTo_serves hverdict hserves, Call.received,
      takeFrame_of_query htask', ← houtcome]
    refine .ends (fun c'' => takeReply_leaves) ⟨Call.takeReply_ended _ _ _, ?_⟩
    rw [takeReply_now]
    exact hstill.now
  · rw [hresult, Reception.answerTo_of_not_serves hverdict hserves,
      received_none_of_query htask']
    cases early with
    | false =>
        -- There was no time left when the query began to wait for this frame.
        rw [outcome_hasty hserves] at houtcome
        have hreached : bus.now = due := Nat.le_antisymm h.before (h.early rfl)
        rw [← houtcome]
        exact .ends (fun c'' hafter => absurd hafter Call.after_over_ne)
          ⟨rfl, hstill.now.trans hreached⟩
    | true =>
        -- The frame passes by, which is the first step of the computation.
        rw [outcome_passes hnow hserves, hmoment] at houtcome
        have hfewer : bus'.wire.arrivals.weight < bus.wire.arrivals.weight := by
          rcases hless with hless | hclosed
          · exact hless
          · -- Only an error ends a reception at a closed wire, and it handed a frame over.
            rw [hresult, Reception.answerTo_of_not_serves hverdict hserves] at hclosed
            cases hclosed
        refine .goes due rfl hfewer ⟨bus.now < due, .start, rest, ⟨?_, ?_, ?_, ?_, ?_, ?_, ?_, ?_⟩,
          ?_⟩
        · rw [h.stage, hstill.now]
          rfl
        · intro hlate
          rw [hstill.now]
          exact Nat.not_lt.mp (of_decide_eq_false hlate)
        · rw [hstill.now]
          exact h.before
        · exact Reception.sound_start _
        · exact hflow
        · exact hcoming
        · rw [hstill.config]
          exact fun q hq => h.accepted q (by rw [hforms]; exact List.mem_cons_of_mem _ hq)
        · rw [hstill.config]
          exact fun q hq => h.checked q (by rw [hforms]; exact List.mem_cons_of_mem _ hq)
        · rw [hstill.now, ← houtcome]
          exact outcome_script fun following => hsettled _

/-- Every turn of a query keeps the invariant or ends the query with its
    answer. -/
theorem asking_advances (htask : c.task = .query request) (hlimit : c.limit = none)
    {log : List Hearing} (h : Bound c answer due log c' bus) :
    Call.Advances id (Comes answer) (Bound c answer) due log c' bus (c'.step id bus) := by
  rcases h with ⟨early, r, forms, h, houtcome⟩
  have hstage : c'.stage = .receiving (some due) early 0 r := by
    rw [h.stage]
  have htask' : c'.task = .query request := by
    rw [h.stage]
    exact htask
  have honly : c'.onlyFrom = some c.client.destination := by
    rw [onlyFrom_of_query htask', h.stage]
  have hsound : c'.Sound := by
    simp only [Call.Sound, hstage, htask']
    rfl
  have hlistens := Call.step_listens hstage hsound h.sound id
  generalize c'.step id bus = move at hlistens ⊢
  cases hlistens with
  | @reads r' bus' hstep hstill hless hheard =>
      -- The read took bytes of the stream over into the reception, so their sum is the same.
      have hsteps := Reception.step_steps c'.onlyFrom h.sound h.flow
      have hsettled := fun left => Reception.step_settled c'.onlyFrom h.sound left
      rw [hstep] at hsteps hsettled
      cases hsteps with
      | again _ _ taken hsound' hgot hgives hfewer =>
          refine .goes due rfl hless ⟨early, r', forms,
            ⟨by rw [h.stage], ?_, ?_, ?_, hgives.flow, ?_, ?_, ?_⟩, ?_⟩
          · rw [hstill.now]
            exact h.early
          · rw [hstill.now]
            exact h.before
          · rw [hstill.config]
            exact hsound'
          · rw [hgot, List.append_assoc, ← h.stream]
            exact congrArg (r.got ++ ·) hgives.bytes.symm
          · rw [hstill.config]
            exact h.accepted
          · rw [hstill.config]
            exact h.checked
          · rw [hstill.now, ← houtcome]
            exact outcome_script fun following => hsettled _
  | waits hstep hbefore hheard =>
      -- The wire has nothing for now; the query sleeps until its deadline at the latest.
      have hidle := Reception.idle_of_waiting h.sound hstep
      have hreceiving : c'.isReceiving = true :=
        Call.isReceiving_iff.mpr ⟨_, _, _, _, hstage⟩
      refine .waits hreceiving ?_ hbefore fun later hprompt => ?_
      · rw [Call.wakes, hstage]
        exact List.mem_append_right _ (List.mem_singleton.mpr rfl)
      · rcases h.later hidle hbefore hprompt with ⟨hlater, hsame⟩
        exact ⟨early, r, forms, hlater, hsame.trans houtcome⟩
  | expires hstep hbefore hlimit' hup hheard =>
      rw [h.stage] at hlimit'
      -- A query is under no limit but its own.
      cases hlimit.symm.trans hlimit'
  | misses hstep hpassed hheard =>
      have hidle := Reception.idle_of_waiting h.sound hstep
      -- The deadline passed before the next frame was there, and so says the computation.
      rw [h.misses hidle hpassed] at houtcome
      rw [lost_of_query htask', ← houtcome]
      exact .ends (fun c'' hafter => absurd hafter Call.after_over_ne) ⟨rfl, rfl⟩
  | hears hstep hstill hless hheard =>
      rw [honly] at hstep
      exact h.received_advances htask houtcome hstep hless

/-! ### What a query comes to -/

/-- Every query comes to its outcome. -/
theorem query_outcome (htask : c.task = .query request) (hlimit : c.limit = none)
    (hstage : c.stage = .sending d) (hdrain : d.step bus = (.over (.ok ()), drained))
    (hflow : drained.wire.arrivals.Flow)
    (hcoming : drained.wire.coming = forms.flatMap Frame.Form.bytes)
    (haccepted : ∀ p ∈ forms, p.Accepted drained.link.config.limits)
    (hchecked : drained.link.config.limits.crcPolicy = .ignore ∨
      ∀ p ∈ forms, p.crc = p.computed) (id : Nat) :
    c.Concludes id (Comes (outcome c.client.destination
        (drained.now + c.client.config.timeout) drained.wire.arrivals
        (drained.now < drained.now + c.client.config.timeout) drained.now forms)) [] bus := by
  have hsent : c.step id bus =
      c.await (some (drained.now + c.client.config.timeout)) 0 drained := by
    rw [Call.step_of_drained hstage hdrain, Call.sent, htask]
  -- Either checksums are not looked at, or none of them fails.
  have hverdict : ∀ p ∈ forms, p.verdict drained.link.config.limits = .ok p.frame := by
    intro p hp
    rcases hchecked with hignore | hmatch
    · rw [Frame.Form.verdict, hignore]
    · rcases p.verdict_cases drained.link.config.limits with hok | hmismatch
      · exact hok
      · rw [Frame.Form.verdict, if_pos (hmatch p hp)] at hmismatch ⊢
        split
        · rfl
        · rfl
  have hasking : Asking c (drained.now + c.client.config.timeout)
      (drained.now < drained.now + c.client.config.timeout) .start forms
      { c with stage := .receiving (some (drained.now + c.client.config.timeout))
                (drained.now < drained.now + c.client.config.timeout) 0 .start } drained := by
    refine ⟨rfl, fun hlate => ?_, Nat.le_add_right _ _, Reception.sound_start _, hflow, hcoming,
      haccepted, hverdict⟩
    exact Nat.not_lt.mp (of_decide_eq_false hlate)
  exact .goes hsent rfl
    (.of_invariant (asking_advances htask hlimit) ⟨_, _, _, hasking, rfl⟩)

/-- A query without any time is over at once where another frame stands in
    front. -/
theorem query_hasty (htask : c.task = .query request) (hlimit : c.limit = none)
    (hstage : c.stage = .sending d) (hdrain : d.step bus = (.over (.ok ()), drained))
    (hflow : drained.wire.arrivals.Flow)
    (hcoming : drained.wire.coming = forms.flatMap Frame.Form.bytes)
    (haccepted : ∀ p ∈ forms, p.Accepted drained.link.config.limits)
    (hchecked : drained.link.config.limits.crcPolicy = .ignore ∨
      ∀ p ∈ forms, p.crc = p.computed) (htimeout : c.client.config.timeout = 0)
    {p : Frame.Form} {rest : List Frame.Form} (hforms : forms = p :: rest)
    (hserves : ¬ p.Serves c.client.destination) (id : Nat) :
    c.Concludes id (Comes (.ok (.reply {}), drained.now)) [] bus := by
  have houtcome := query_outcome htask hlimit hstage hdrain hflow hcoming haccepted hchecked id
  have hdue : drained.now + c.client.config.timeout = drained.now := by
    rw [htimeout]
    exact Nat.add_zero _
  rw [hdue, hforms, decide_eq_false (Nat.lt_irrefl _), outcome_hasty hserves] at houtcome
  exact houtcome

/-- A query ends with the right frame, and never waits past its deadline. From the
    moment at which the request has been sent it listens until then, whatever the
    clock does in between. The first frame that serves is the answer, as soon as
    it is there, if that is before the deadline, however many frames pass by
    before it; but a query without any time has to find it in front. Where no such
    frame is there by the deadline, the reply is empty, and comes at the deadline.
    So it does at once where a query without any time finds another frame in
    front. -/
theorem query_concludes (htask : c.task = .query request) (hlimit : c.limit = none)
    (hstage : c.stage = .sending d) (hdrain : d.step bus = (.over (.ok ()), drained))
    (hflow : drained.wire.arrivals.Flow)
    (hcoming : drained.wire.coming = forms.flatMap Frame.Form.bytes)
    (haccepted : ∀ p ∈ forms, p.Accepted drained.link.config.limits)
    (hchecked : drained.link.config.limits.crcPolicy = .ignore ∨
      ∀ p ∈ forms, p.crc = p.computed) (id : Nat) :
    let due := drained.now + c.client.config.timeout
    let there := drained.wire.arrivals.there
    c.Concludes id (fun _ move =>
      move.2.now ≤ due ∧
        (∀ skipped p rest, forms = skipped ++ p :: rest →
          (∀ q ∈ skipped, ¬ q.Serves c.client.destination) → p.Serves c.client.destination →
          there rest < due → c.client.config.timeout ≠ 0 ∨ skipped = [] →
            Call.ended move.1 = some (Call.parsed p.payload) ∧
              move.2.now = max drained.now (there rest)) ∧
        ((∀ skipped p rest, forms = skipped ++ p :: rest → p.Serves c.client.destination →
            due < there rest) →
          Call.ended move.1 = some (.ok (.reply {})) ∧ move.2.now = due) ∧
        (c.client.config.timeout = 0 → ∀ p rest, forms = p :: rest →
          ¬ p.Serves c.client.destination →
            Call.ended move.1 = some (.ok (.reply {})) ∧ move.2.now = drained.now))
      [] bus := by
  intro due there
  have houtcome := query_outcome htask hlimit hstage hdrain hflow hcoming haccepted hchecked id
  refine houtcome.mono fun _ move ⟨hended, hmoment⟩ => ?_
  -- What remains is what the computation gives for each pattern of arrivals.
  have hcomes : ∀ expected : Call.Result × Duration,
      outcome c.client.destination due drained.wire.arrivals (drained.now < due) drained.now
        forms = expected →
      Call.ended move.1 = some expected.1 ∧ move.2.now = expected.2 := by
    intro expected hexpected
    rw [← hexpected]
    exact ⟨hended, hmoment⟩
  refine ⟨?_, ?_, ?_, ?_⟩
  · rw [hmoment]
    exact (outcome_bounds (Nat.le_add_right _ _)).2
  · intro skipped p rest hforms hskipped hserves hbefore htime
    have hstart : drained.now ≤ due := Nat.le_add_right _ _
    refine hcomes (_, _) (outcome_answered hforms hskipped hserves
      (Nat.max_le.mpr ⟨hstart, Nat.le_of_lt hbefore⟩) ?_)
    rcases htime with htimeout | hfront
    · have hleft : drained.now < due := Nat.lt_add_of_pos_right (Nat.pos_of_ne_zero htimeout)
      exact Or.inl ⟨decide_eq_true hleft, Nat.max_lt.mpr ⟨hleft, hbefore⟩⟩
    · exact Or.inr hfront
  · exact fun hnone => hcomes (_, _) (outcome_empty hnone)
  · intro htimeout p rest hforms hserves
    -- Without time the limit is the moment of the request, which leaves room for one frame.
    have hdue : due = drained.now := by
      change drained.now + c.client.config.timeout = drained.now
      rw [htimeout]
      exact Nat.add_zero _
    refine hcomes (_, _) ?_
    rw [hforms, hdue, decide_eq_false (Nat.lt_irrefl _), outcome_hasty hserves]

/-- A frame from another device. -/
def stray : Frame where
  source := 6
  destination := 0
  payload := [0x20, 0x10, 1]

/-- The reply to a request for one register. -/
def reply : Frame where
  source := 5
  destination := 0
  payload := [0x20, 0x10, 2]

/-- Both frames have been there for some time, the other device's first. -/
def crowded : Bus where
  now := .ofMillis 10
  wire := { arrivals := [(0, .data 0x54 ((stray.form.bytes ++ reply.form.bytes).drop 1))] }

/-- A query whose request is on its way. -/
def asking (timeout : Duration) : Call where
  task := .query [0x18, 0x10]
  client := { destination := 5, config := { timeout } }
  stage := .sending .flushing

theorem crowded_forms : crowded.wire.arrivals.Flow ∧
    crowded.wire.coming = [stray.form, reply.form].flatMap Frame.Form.bytes ∧
    (∀ p ∈ [stray.form, reply.form], p.Accepted crowded.link.config.limits) ∧
    (∀ p ∈ [stray.form, reply.form], p.crc = p.computed) ∧
    ¬ stray.form.Serves 5 ∧ reply.form.Serves 5 ∧
    crowded.wire.arrivals.there [] = 0 := by
  refine ⟨by decide +kernel, by decide +kernel, ?_, by decide +kernel, by decide +kernel,
    by decide +kernel, by decide +kernel⟩
  refine List.forall_mem_cons.mpr ⟨?_, List.forall_mem_cons.mpr ⟨?_, fun _ h => nomatch h⟩⟩
  · exact Frame.accepted_form (Frame.passes_of_fits (by decide) (by decide))
  · exact Frame.accepted_form (Frame.passes_of_fits (by decide) (by decide))

/-- A query with time lets the other frame pass. -/
theorem query_concludes_past_stray :
    (asking (.ofMillis 50)).Concludes 0 (fun _ move =>
      Call.ended move.1 = some (Call.parsed reply.payload) ∧ move.2.now = crowded.now)
      [] crowded := by
  rcases crowded_forms with ⟨hflow, hcoming, haccepted, hcrc, hstray, hreply, hthere⟩
  have hdrain : Drain.flushing.step crowded = (.over (.ok ()), crowded) := rfl
  have hconcludes := query_concludes (c := asking (.ofMillis 50)) rfl rfl rfl hdrain hflow hcoming
    haccepted (Or.inr hcrc) 0
  refine hconcludes.mono fun _ move ⟨_, hanswered, _⟩ => ?_
  rcases hanswered [stray.form] reply.form [] rfl (List.forall_mem_singleton.mpr hstray) hreply
    (by rw [hthere]; decide) (Or.inl (by decide)) with ⟨hended, hmoment⟩
  rw [hthere] at hmoment
  exact ⟨hended, hmoment⟩

/-- A query without any time takes no frame but the first. The reply has been
    there before its deadline, but stands behind a frame from another device, and
    the query does not end with it. -/
theorem stray_before_reply :
    let c := asking 0
    let due := crowded.now + c.client.config.timeout
    Drain.flushing.step crowded = (.over (.ok ()), crowded) ∧ crowded.wire.arrivals.Flow ∧
      crowded.wire.coming = [stray.form, reply.form].flatMap Frame.Form.bytes ∧
      (∀ p ∈ [stray.form, reply.form], p.Accepted crowded.link.config.limits) ∧
      (∀ p ∈ [stray.form, reply.form], p.crc = p.computed) ∧
      ¬ stray.form.Serves 5 ∧ reply.form.Serves 5 ∧ crowded.wire.arrivals.there [] < due ∧
      ¬ c.Concludes 0 (fun _ move =>
        Call.ended move.1 = some (Call.parsed reply.form.payload) ∧
          move.2.now = max crowded.now (crowded.wire.arrivals.there [])) [] crowded := by
  intro c due
  rcases crowded_forms with ⟨hflow, hcoming, haccepted, hcrc, hstray, hreply, hthere⟩
  have hdrain : Drain.flushing.step crowded = (.over (.ok ()), crowded) := rfl
  have hbefore : crowded.wire.arrivals.there [] < due := by
    rw [hthere]
    decide
  refine ⟨hdrain, hflow, hcoming, haccepted, hcrc, hstray, hreply, hbefore, fun hright => ?_⟩
  -- The stray frame is all the query looks at, so it comes back empty.
  have hempty : c.Concludes 0 (Comes (.ok (.reply {}), crowded.now)) [] crowded :=
    query_hasty rfl rfl rfl hdrain hflow hcoming haccepted (Or.inr hcrc) rfl rfl hstray 0
  rcases (hright.and hempty).comes with ⟨_, move, ⟨hparsed, _⟩, hnothing, _⟩
  rw [hparsed] at hnothing
  exact absurd hnothing (by decide +kernel)

end Query

end Multidrop
