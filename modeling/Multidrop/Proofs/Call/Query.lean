import Multidrop.Proofs.Call.Receiving

/-!
# Turns of a Query

A query puts one frame on the queue when it has got the lock, and then waits
for one frame. Whatever frame it hears it takes for the reply, since nothing in
a frame says which request it answers. If it hears none in time it ends with an
empty reply, and if its request does not fit a frame it ends with an error and
has sent nothing. Over a wire on which nothing that is sent fails there is no
other way for it to end.

## Main definitions

* `Client.request`: The frame of a request.
* `parsed`: How a query ends with the payload of a reply.

## Theorems

* `query_hears`: A query ends with the frame it hears.
* `query_ended`: How a query ends that hears nothing.
* `query_reads_on`: When a query does not end though its time is up.
* `Goes.query`: What a turn of a query puts on the queue.
* `reply_heard`: Where a reply comes from.
-/

namespace Multidrop

/-- The frame of a request to the device with a given address. -/
def Client.request (config : Link.Config) (destination : UInt8) (payload : List UInt8) :
    Frame where
  source := config.source
  destination := destination
  payload := payload
  requestReply := true

namespace Call

/-- How a query ends with the payload of a reply. -/
def parsed (payload : List UInt8) : Result :=
  match Register.Reply.parse payload with
  | .error e => .error (.frame (.varuint e))
  | .ok reply => .ok (.reply reply)

variable {id : Nat} {c c' : Call} {bus : Bus} {move : Move} {request : List UInt8}
  {result : Result}

theorem frames_of_query (htask : c.task = .query request) (link : Link) :
    c.task.frames link c.client = [Client.request link.config c.client.destination request] := by
  rw [htask]
  rfl

theorem takeReply_ended (c : Call) (payload : List UInt8) (bus : Bus) :
    ended (c.takeReply payload bus).1 = some (parsed payload) := by
  rw [takeReply, parsed]
  cases Register.Reply.parse payload with
  | error e => rfl
  | ok reply => rfl

/-- A query ends with the frame it hears. -/
theorem query_hears (htask : c.task = .query request) {f : Frame.Received}
    (hheard : c.heard bus = some (.ok (some f))) :
    ended (c.step id bus).1 = some (parsed f.payload) := by
  unfold heard at hheard
  split at hheard
  · rename_i deadline early taken r hstage
    have hworks := step_work id c bus
    simp only [work, hstage] at hworks
    generalize r.step c.onlyFrom bus = turn at hworks hheard
    rcases turn with ⟨next | _ | result, bus'⟩
    · cases hheard
    · cases hheard
    · rw [Option.some.injEq] at hheard
      have hreceived : ended (c.received deadline early taken result bus').1 =
          some (parsed f.payload) := by
        rw [hheard]
        simp only [received, takeFrame, htask]
        exact takeReply_ended c f.payload bus'
      -- A limit would only have ended a turn that waits, and this one ended by itself.
      rcases hworks with hstep | ⟨bus'', e, hwaits, hstep⟩
      · rw [hstep]
        exact hreceived
      · simp only [] at hwaits
        rw [hwaits] at hreceived
        cases hreceived
  · cases hheard

/-- A query that hears nothing ends because its request does not fit a frame,
    or because its time is up. -/
theorem query_ended (htask : c.task = .query request) (hlimit : c.limit = none)
    (hobliging : bus.wire.Obliging) (hheard : c.heard bus = none)
    (hended : ended (c.step id bus).1 = some result) :
    (c.enters id bus = true ∧
      ¬ (Client.request bus.link.config c.client.destination request).Fits ∧
        ∃ e, result = .error (.frame e)) ∨
      (c.isReceiving = true ∧ result = .ok (.reply {})) := by
  -- Without a limit a turn is what its stage makes of it, so the stages are gone through.
  rw [step_of_unlimited hlimit] at hended
  unfold work at hended
  split at hended
  · -- A query does not answer from the buffer.
    simp only [start, htask, enqueue, buffered, goTo, ended, reduceCtorEq] at hended
  · rename_i hstage
    split at hended
    · rename_i hholder
      simp only [enter, htask, sendFrame] at hended
      split at hended
      · rename_i e hqueue
        rw [handOn, finish, ended, Option.some.injEq] at hended
        refine Or.inl ⟨enters_of_holder hstage hholder, fun hfits => ?_, e, hended.symm⟩
        have hload := Link.queueFrame_of_fits hfits bus.link
        -- The batch is this one frame, so it was refused because the frame does not fit.
        rw [show Client.request bus.link.config c.client.destination request =
          c.client.frame bus.link request true from rfl, hqueue] at hload
        cases hload
      · cases hended
    · cases hended
  · -- The wire takes everything it is offered, so the drain cannot end the query.
    rename_i d hstage
    have hsends := (Drain.step_obliging hobliging d).2
    split at hended
    · cases hended
    · cases hended
    · rename_i e bus' hdrain
      rw [hdrain] at hsends
      exact absurd rfl (hsends e)
    · simp only [sent, htask, await, goTo, ended, reduceCtorEq] at hended
  · rename_i deadline early taken r hstage
    have hreceiving : c.isReceiving = true := isReceiving_iff.mpr ⟨_, _, _, _, hstage⟩
    split at hended
    · cases hended
    · split at hended
      · simp only [lost, htask, handOn, finish, ended, Option.some.injEq] at hended
        -- Its time ran out while it listened: the reply is empty.
        exact Or.inr ⟨hreceiving, hended.symm⟩
      · cases hended
    · rename_i heard bus' hover
      simp only [Call.heard, hstage, hover, reduceCtorEq] at hheard
  · split at hended
    · cases hended
    · cases hended

/-- A query whose time is up and that neither hears anything nor ends at a turn
    has read on, of what was there to be read. -/
theorem query_reads_on (htask : c.task = .query request) {deadline : Duration} {early : Bool}
    {taken : Nat} {r : Reception} (hstage : c.stage = .receiving (some deadline) early taken r)
    (hpassed : deadline ≤ bus.now) (hreception : r.Sound bus.link.config.limits)
    (hflow : bus.wire.arrivals.Flow) (hheard : c.heard bus = none)
    (hended : ended (c.step id bus).1 = none) :
    ∃ r', c.after (c.step id bus).1 =
        some { c with stage := .receiving (some deadline) early taken r' } ∧
      (c.step id bus).2.wire.arrivals.reads < bus.wire.arrivals.reads := by
  have hsteps := Reception.step_steps c.onlyFrom hreception hflow
  have hworks := step_work id c bus
  simp only [heard, hstage] at hheard
  simp only [work, hstage] at hworks
  generalize r.step c.onlyFrom bus = turn at hsteps hworks hheard
  cases hsteps with
  | waiting hdue =>
      -- With nothing to be read it would have ended.
      have htimely : (some deadline).any (· ≤ bus.now) = true := decide_eq_true hpassed
      simp only [htimely, if_true, lost, htask] at hworks
      rcases hworks with hstep | ⟨bus', e, hwaits, _⟩
      · rw [hstep] at hended
        cases hended
      · cases congrArg Prod.fst hwaits
  | again next bus' more hnext hgot hgives hfewer =>
      rcases hworks with hstep | ⟨bus'', e, hwaits, _⟩
      · rw [hstep]
        exact ⟨next, rfl, hfewer⟩
      · cases congrArg Prod.fst hwaits
  | ended result bus' more hgives hfewer hanswers => cases hheard

/-- A turn of a query puts its request on the queue, at the turn at which it
    has got the lock, or it puts nothing there and begins no exchange. -/
theorem Goes.query (h : Goes id c bus move) (htask : c.task = .query request) :
    (c.enters id bus = true ∧ ended move.1 = none ∧
      (Client.request bus.link.config c.client.destination request).Fits ∧
      move.2.traffic = bus.traffic ++
        (Client.request bus.link.config c.client.destination request).bytes) ∨
    ((c.enters id bus = true → ended move.1 ≠ none) ∧ move.2.traffic = bus.traffic ∧
      ∀ c', c.after move.1 = some c' → c'.stage.exchanging = true →
        c.stage.exchanging = true) := by
  have htraffic := h.traffic
  have hnothing : c.enters id bus = false → move.2.traffic = bus.traffic := by
    intro henters
    rw [henters, if_neg Bool.false_ne_true, List.append_nil] at htraffic
    exact htraffic
  -- A turn that is not the one at which the query has got the lock.
  have hother : c.enters id bus = false →
      (∀ c', c.after move.1 = some c' → c'.stage.exchanging = true →
        c.stage.exchanging = true) →
      (c.enters id bus = true → ended move.1 ≠ none) ∧ move.2.traffic = bus.traffic ∧
        ∀ c', c.after move.1 = some c' → c'.stage.exchanging = true →
          c.stage.exchanging = true := by
    intro henters hexchanging
    refine ⟨fun htrue => ?_, hnothing henters, hexchanging⟩
    rw [henters] at htrue
    exact absurd htrue Bool.false_ne_true
  cases h with
  -- The one turn at which the request goes to the traffic.
  | enter hqueued hholder hfits =>
      have henters := enters_of_holder hqueued hholder
      have hgroup : Frame.group (c.task.frames bus.link c.client) =
          (Client.request bus.link.config c.client.destination request).bytes := by
        rw [Frame.group_of_fits hfits, frames_of_query htask, List.flatMap_singleton]
      rw [if_pos henters, hgroup] at htraffic
      rw [frames_of_query htask] at hfits
      exact Or.inl ⟨henters, rfl, hfits _ List.mem_cons_self, htraffic⟩
  -- The request does not fit, so the query ends at the same turn and sends nothing.
  | reject hqueued hholder hnone =>
      rw [if_pos (enters_of_holder hqueued hholder), Frame.group_eq, hnone, List.flatMap_nil,
        List.append_nil] at htraffic
      exact Or.inr ⟨fun _ => nofun, htraffic, fun c' hafter => absurd hafter after_over_ne⟩
  | refuse hfresh =>
      exact Or.inr (hother (enters_of_stage (by rw [hfresh]; exact Stage.noConfusion))
        fun c' hafter => absurd hafter after_over_ne)
  | answer hfresh hbuffered =>
      exact Or.inr (hother (enters_of_stage (by rw [hfresh]; exact Stage.noConfusion))
        fun c' hafter => absurd hafter after_over_ne)
  | ask hfresh hbuffered =>
      refine Or.inr (hother (enters_of_stage (by rw [hfresh]; exact Stage.noConfusion)) ?_)
      intro c' hafter hexchanging
      rw [← Option.some.inj hafter] at hexchanging
      exact absurd hexchanging Bool.false_ne_true
  | send hsending hgoes =>
      exact Or.inr (hother (enters_of_stage (by rw [hsending]; exact Stage.noConfusion))
        fun _ _ _ => by rw [hsending]; rfl)
  | unsent hsending hgoes =>
      exact Or.inr (hother (enters_of_stage (by rw [hsending]; exact Stage.noConfusion))
        fun _ _ _ => by rw [hsending]; rfl)
  | sent hsending hgoes hread =>
      exact Or.inr (hother (enters_of_stage (by rw [hsending]; exact Stage.noConfusion))
        fun _ _ _ => by rw [hsending]; rfl)
  | listen hsending hgoes hreceives =>
      exact Or.inr (hother (enters_of_stage (by rw [hsending]; exact Stage.noConfusion))
        fun _ _ _ => by rw [hsending]; rfl)
  | receive hreceiving hheard hstill =>
      exact Or.inr (hother (enters_of_stage (by rw [hreceiving]; exact Stage.noConfusion))
        fun _ _ _ => by rw [hreceiving]; rfl)
  | settle hreceiving hstill hsettles =>
      exact Or.inr (hother (enters_of_stage (by rw [hreceiving]; exact Stage.noConfusion))
        fun _ _ _ => by rw [hreceiving]; rfl)
  | wake hpausing =>
      refine Or.inr (hother (enters_of_stage (by rw [hpausing]; exact Stage.noConfusion)) ?_)
      intro c' hafter hexchanging
      rw [← Option.some.inj hafter] at hexchanging
      exact absurd hexchanging Bool.false_ne_true
  | wait hwaits =>
      refine Or.inr (hother hwaits.enters fun c' hafter hexchanging => ?_)
      rw [← Option.some.inj hafter] at hexchanging
      exact hexchanging
  | expire hwaits =>
      exact Or.inr (hother hwaits.enters fun c' hafter => absurd hafter after_over_ne)

/-! ### Replies -/

/-- A buffer of stream bytes answers no query. -/
theorem buffered_ne_reply (c : Call) (reply : Register.Reply) :
    c.buffered.1 ≠ some (.reply reply) := by
  unfold buffered
  split
  · split
    · exact nofun
    · exact nofun
  · intro h
    rcases Option.map_eq_some_iff.mp h with ⟨line, _, hanswer⟩
    exact absurd hanswer nofun
  · exact nofun

variable {reply : Register.Reply} {taken : Nat}

theorem endRound_ne_reply : ended (c.endRound taken bus).1 ≠ some (.ok (.reply reply)) := by
  unfold endRound
  split
  · rintro ⟨⟩
  · simp only
    split
    · rename_i answer hbuffered
      intro h
      rw [handOn, finish, ended, Option.some.injEq, Except.ok.injEq] at h
      rw [h] at hbuffered
      exact buffered_ne_reply c reply hbuffered
    · rintro ⟨⟩

theorem sendFrame_ne_reply {f : Frame} :
    ended (c.sendFrame f bus).1 ≠ some (.ok (.reply reply)) := by
  unfold sendFrame
  split
  · rintro ⟨⟩
  · rintro ⟨⟩

theorem enter_ne_reply : ended (c.enter bus).1 ≠ some (.ok (.reply reply)) := by
  unfold enter
  split
  · exact nofun
  · exact nofun
  · unfold sendStream
    split
    · exact nofun
    · exact nofun
  · exact sendFrame_ne_reply
  · exact sendFrame_ne_reply
  · exact sendFrame_ne_reply
  · exact sendFrame_ne_reply
  · exact sendFrame_ne_reply
  · exact nofun

theorem sent_ne_reply : ended (c.sent bus).1 ≠ some (.ok (.reply reply)) := by
  unfold sent
  cases c.task with
  | _ => exact nofun

/-- Who goes without an answer gets an empty reply at most. -/
theorem lost_reply (h : ended (c.lost taken bus).1 = some (.ok (.reply reply))) :
    reply = {} := by
  unfold lost at h
  split at h
  · rw [handOn, finish, ended, Option.some.injEq, Except.ok.injEq, Answer.reply.injEq] at h
    exact h.symm
  · exact absurd h endRound_ne_reply

theorem takeChunk_ne_reply {payload : List UInt8} :
    ended (c.takeChunk taken payload bus).1 ≠ some (.ok (.reply reply)) := by
  unfold takeChunk
  split
  · exact nofun
  · exact endRound_ne_reply
  · simp only
    split
    · exact endRound_ne_reply
    · split
      · exact nofun
      · exact nofun

/-- A reply is what the payload of the frame says. -/
theorem takeFrame_reply {f : Frame.Received}
    (h : ended (c.takeFrame taken f bus).1 = some (.ok (.reply reply))) :
    Register.Reply.parse f.payload = .ok reply := by
  unfold takeFrame at h
  split at h
  · exact absurd h nofun
  · rw [takeReply_ended, parsed, Option.some.injEq] at h
    split at h
    · exact absurd h nofun
    · rename_i said hparse
      rw [Except.ok.injEq, Answer.reply.injEq] at h
      rw [hparse, h]
  · exact absurd h takeChunk_ne_reply

theorem received_reply {deadline : Option Duration} {early : Bool}
    {result' : Reception.Result}
    (h : ended (c.received deadline early taken result' bus).1 = some (.ok (.reply reply))) :
    reply = {} ∨ ∃ f, result' = .ok (some f) ∧ Register.Reply.parse f.payload = .ok reply := by
  unfold received at h
  split at h
  · rename_i f
    exact Or.inr ⟨f, rfl, takeFrame_reply h⟩
  · split at h
    · exact absurd h nofun
    · split at h
      · exact absurd h nofun
      · exact Or.inl (lost_reply h)
  · split at h
    · exact absurd h nofun
    · split at h
      · exact Or.inl (lost_reply h)
      · exact absurd h nofun

/-- A reply that is not empty is what the frame says that was heard at that
    turn. -/
theorem reply_heard (h : ended (c.step id bus).1 = some (.ok (.reply reply))) :
    reply = {} ∨ ∃ f, c.heard bus = some (.ok (some f)) ∧
      Register.Reply.parse f.payload = .ok reply := by
  rcases step_work id c bus with hstep | ⟨bus', e, _, hstep⟩
  · rw [hstep] at h
    unfold work at h
    -- Only what has been waiting for a frame can end with a reply.
    split at h
    · unfold start at h
      split at h
      · cases h
      · unfold enqueue at h
        simp only at h
        split at h
        · rename_i answer hbuffered
          rw [finish, ended, Option.some.injEq, Except.ok.injEq] at h
          rw [h] at hbuffered
          exact absurd hbuffered (buffered_ne_reply c reply)
        · cases h
    · split at h
      · exact absurd h enter_ne_reply
      · cases h
    · split at h
      · cases h
      · cases h
      · cases h
      · exact absurd h sent_ne_reply
    · rename_i deadline early taken r hstage
      simp only [heard, hstage]
      generalize r.step c.onlyFrom bus = turn at h ⊢
      rcases turn with ⟨next | _ | result, bus'⟩
      · cases h
      · simp only at h
        split at h
        · exact Or.inl (lost_reply h)
        · cases h
      · refine (received_reply h).imp_right ?_
        rintro ⟨f, hresult, hparse⟩
        exact ⟨f, by rw [hresult], hparse⟩
    · split at h
      · cases h
      · cases h
  · rw [hstep] at h
    cases h

end Call

end Multidrop
