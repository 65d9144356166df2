import Multidrop.Proofs.Call.Waiting
import Multidrop.Proofs.History

/-!
# Rounds of a Poll

A round begins when the frame that asks for stream bytes has been sent. It has
a deadline, which moves. Each frame from the device that begins with the full
header of a stream sub-frame sets it anew, whatever its channel, and nothing
else does. The round takes frames until the deadline, and ends before that only
at a frame that does not begin so, or at an error.

What a round has heard, and when, settles the deadline, what was collected and
how the round ends. So the invariant of a round is that the call is what its
log makes of it.

## Main definitions

* `Hearing.chunk?`: The stream sub-frame that keeps a round going.
* `Hearing.closes?`: How a round ends that hears this.
* `Round.deadline`, `Round.collected`: What a log makes of a round.
* `Round.InTime`: Everything was heard before the deadline.
* `Round.Ends`: How a round ends.

## Theorems

* `Round.Hears.advances`: What is heard keeps the invariant or ends the round.
* `Round.round_concludes`: Every round ends, and how.
-/

namespace Multidrop

namespace Hearing

/-- The stream sub-frame in what was heard, if it is one from a device with a
    full header. -/
def chunk? (h : Hearing) : Option Stream.Chunk :=
  match h.result with
  | .ok (some f) =>
    match Stream.parse f.payload with
    | .ok (some chunk) => if chunk.id = Subframe.toHost then some chunk else none
    | _ => none
  | _ => none

/-- How a round ends that hears this, if that ends it. -/
def closes? (h : Hearing) : Option (Except Link.Error Unit) :=
  match h.result with
  | .ok none => none
  | .ok (some f) =>
    match Stream.parse f.payload with
    | .error e => some (.error (.frame (.varuint e)))
    | .ok none => some (.ok ())
    | .ok (some chunk) => if chunk.id = Subframe.toHost then none else some (.ok ())
  | .error e => if e.isTransient then some (.ok ()) else some (.error e)

/-- The stream bytes in what was heard, for a channel. -/
def data (channel : UInt32) (h : Hearing) : List UInt8 :=
  match h.chunk? with
  | some chunk => if chunk.channel = channel then chunk.data else []
  | none => []

end Hearing

namespace Round

/-- The deadline of a round whose frame was sent at a given moment: the timeout
    of the client, or its follow-up time after the last stream sub-frame. -/
def deadline (config : Client.Config) (drained : Duration) (log : List Hearing) : Duration :=
  log.foldl (fun deadline h =>
    if h.chunk?.isSome then h.moment + config.followup else deadline) (drained + config.timeout)

/-- The stream bytes a round has collected. -/
def collected (channel : UInt32) (log : List Hearing) : List UInt8 :=
  log.flatMap (Hearing.data channel)

end Round

/-- A call with what a round has collected behind what its client had. -/
def Call.keeping (log : List Hearing) (c : Call) : Call :=
  { c with client := c.client.receive (Round.collected c.client.config.channel log) }

namespace Round

variable {id : Nat} {c c' : Call} {bus bus' : Bus} {move : Call.Move} {log : List Hearing}
  {drained now : Duration} {d : Drain} {h : Hearing} {config : Client.Config}

/-- What a round hears comes after its frame was sent, no later than the
    deadline that was set by then, and from the device alone. -/
structure InTime (client : Client) (drained : Duration) (log : List Hearing) : Prop where
  since : ∀ h ∈ log, drained ≤ h.moment
  before : ∀ earlier h later, log = earlier ++ h :: later →
    h.moment ≤ deadline client.config drained earlier
  source : ∀ h ∈ log, ∀ f, h.result = .ok (some f) → f.source = client.destination

/-- How a round ends. -/
inductive Ends (c : Call) (drained : Duration) : List Hearing → Call.Move → Prop where
  /-- The deadline has come. -/
  | missed {log : List Hearing} {bus : Bus} (hopen : ∀ h ∈ log, h.closes? = none)
      (hnow : bus.now = deadline c.client.config drained log) :
      Ends c drained log
        ((c.keeping log).endRound (collected c.client.config.channel log).length bus)
  /-- Something else was heard than stream bytes, or an error that passes. -/
  | closed {log : List Hearing} {h : Hearing} {bus : Bus} (hopen : ∀ h ∈ log, h.closes? = none)
      (hcloses : h.closes? = some (.ok ())) (hnow : bus.now = h.moment) :
      Ends c drained (log ++ [h])
        ((c.keeping log).endRound (collected c.client.config.channel log).length bus)
  | failed {log : List Hearing} {h : Hearing} {e : Link.Error} {bus : Bus}
      (hopen : ∀ h ∈ log, h.closes? = none) (hcloses : h.closes? = some (.error e))
      (hnow : bus.now = h.moment) :
      Ends c drained (log ++ [h]) ((c.keeping log).handOn (.error e) bus)
  /-- The time of the call is up before the deadline of the round. -/
  | expired {log : List Hearing} {limit : Duration} {bus : Bus}
      (hopen : ∀ h ∈ log, h.closes? = none) (hlimit : c.limit = some limit)
      (hup : c.started + limit ≤ bus.now) :
      Ends c drained log (.over ((c.keeping log).client, .error (.timeout limit)), bus)

/-! ### What is heard -/

theorem deadline_snoc (config : Client.Config) (drained : Duration) (log : List Hearing)
    (h : Hearing) : deadline config drained (log ++ [h]) =
      if h.chunk?.isSome then h.moment + config.followup else deadline config drained log := by
  rw [deadline, List.foldl_append]
  rfl

theorem collected_snoc (channel : UInt32) (log : List Hearing) (h : Hearing) :
    collected channel (log ++ [h]) = collected channel log ++ h.data channel := by
  rw [collected, List.flatMap_append, List.flatMap_singleton]
  rfl

/-- What closes a round is no stream sub-frame that keeps it going. -/
theorem chunk?_of_closes (hcloses : h.closes? ≠ none) : h.chunk? = none := by
  rw [Hearing.closes?] at hcloses
  rw [Hearing.chunk?]
  split
  · rename_i f hresult
    simp only [hresult] at hcloses
    split
    · rename_i chunk hparse
      simp only [hparse] at hcloses
      by_cases hid : chunk.id = Subframe.toHost
      · exact absurd (if_pos hid) hcloses
      · exact if_neg hid
    · rfl
  · rfl

/-- The end of the stream closes a round. -/
theorem ne_closed_of_open {moment : Duration} {result : Reception.Result}
    (hopen : Hearing.closes? ⟨moment, result⟩ = none) : result ≠ .error .closed := by
  intro hclosed
  rw [hclosed] at hopen
  exact absurd hopen nofun

theorem data_of_chunk (hchunk : h.chunk? = none) (channel : UInt32) : h.data channel = [] := by
  rw [Hearing.data, hchunk]

theorem keeping_snoc (c : Call) (log : List Hearing) (h : Hearing) :
    c.keeping (log ++ [h]) =
      { c.keeping log with
        client := (c.keeping log).client.receive (h.data c.client.config.channel) } := by
  simp only [Call.keeping, Client.receive, collected_snoc, List.append_assoc]

/-! What brings no stream bytes for any channel leaves a round as it is. -/

theorem deadline_of_mute (hmute : h.chunk? = none) (config : Client.Config) (drained : Duration)
    (log : List Hearing) :
    deadline config drained (log ++ [h]) = deadline config drained log := by
  rw [deadline_snoc, hmute]
  rfl

theorem collected_of_mute (hmute : h.chunk? = none) (channel : UInt32) (log : List Hearing) :
    collected channel (log ++ [h]) = collected channel log := by
  rw [collected_snoc, data_of_chunk hmute, List.append_nil]

theorem keeping_of_mute (hmute : h.chunk? = none) (c : Call) (log : List Hearing) :
    c.keeping (log ++ [h]) = c.keeping log := by
  rw [keeping_snoc, data_of_chunk hmute, Client.receive, List.append_nil]

theorem InTime.snoc {client : Client} (hlog : InTime client drained log)
    (hsince : drained ≤ h.moment) (hbefore : h.moment ≤ deadline client.config drained log)
    (hsource : ∀ f, h.result = .ok (some f) → f.source = client.destination) :
    InTime client drained (log ++ [h]) where
  since := by
    intro g hg
    rcases List.mem_append.mp hg with hearlier | hlast
    · exact hlog.since g hearlier
    · rw [List.mem_singleton.mp hlast]
      exact hsince
  before := by
    intro earlier g later hcut
    -- A cut falls at the new entry, where its own bound counts, or before it.
    rcases History.cut_of_snoc hcut with ⟨_, hlast, hearlier⟩ | ⟨since, _, hearlier⟩
    · rw [← hlast, ← hearlier]
      exact hbefore
    · exact hlog.before earlier g since hearlier
  source := by
    intro g hg
    rcases List.mem_append.mp hg with hearlier | hlast
    · exact hlog.source g hearlier
    · rw [List.mem_singleton.mp hlast]
      exact hsource

/-! ### The invariant -/

/-- The invariant of a round: the call is what its log makes of it, and the
    deadline is still to come or comes now. -/
structure Under (c : Call) (drained due : Duration) (log : List Hearing) (c' : Call)
    (bus : Bus) : Prop where
  stage : ∃ early r, c' = { c.keeping log with
      stage := .receiving (some due) early (collected c.client.config.channel log).length r } ∧
    (early = false → due ≤ bus.now) ∧ r.Sound bus.link.config.limits
  deadline : due = deadline c.client.config drained log
  since : drained ≤ bus.now
  before : bus.now ≤ due
  inTime : InTime c.client drained log
  still : ∀ h ∈ log, h.closes? = none

/-- Everything that can follow when a call that polls has heard something. -/
inductive Takes (c : Call) (due : Option Duration) (early : Bool) (taken : Nat) (h : Hearing)
    (bus : Bus) : Call.Move → Prop where
  | closes (hcloses : h.closes? = some (.ok ())) :
      Takes c due early taken h bus (c.endRound taken bus)
  | fails {e : Link.Error} (hcloses : h.closes? = some (.error e)) :
      Takes c due early taken h bus (c.handOn (.error e) bus)
  /-- A frame that is of no use. -/
  | passes (hopen : h.closes? = none) (hchunk : h.chunk? = none) (hearly : early = true) :
      Takes c due early taken h bus (c.await due taken bus)
  /-- Such a frame, with no time left for another one. -/
  | gives (hopen : h.closes? = none) (hchunk : h.chunk? = none) (hearly : early = false) :
      Takes c due early taken h bus (c.endRound taken bus)
  | collects {chunk : Stream.Chunk} (hopen : h.closes? = none) (hchunk : h.chunk? = some chunk) :
      Takes c due early taken h bus
        ({ c with client := c.client.receive (h.data c.client.config.channel) }.await
          (some (bus.now + c.client.config.followup))
          (taken + (h.data c.client.config.channel).length) bus)

theorem lost_of_polls (hpolls : c.task.polls = true) (taken : Nat) (bus : Bus) :
    c.lost taken bus = c.endRound taken bus := by
  rw [Call.lost]
  split
  · rename_i request htask
    rw [htask] at hpolls
    exact absurd hpolls Bool.false_ne_true
  · rfl

theorem takeFrame_of_polls (hpolls : c.task.polls = true) (taken : Nat) (f : Frame.Received)
    (bus : Bus) : c.takeFrame taken f bus = c.takeChunk taken f.payload bus := by
  rw [Call.takeFrame]
  split
  · rename_i source htask
    rw [htask] at hpolls
    exact absurd hpolls Bool.false_ne_true
  · rename_i request htask
    rw [htask] at hpolls
    exact absurd hpolls Bool.false_ne_true
  · rfl

theorem not_receive_of_polls (hpolls : c.task.polls = true) (source : Option UInt8) :
    c.task ≠ .receive source := by
  intro htask
  rw [htask] at hpolls
  exact absurd hpolls Bool.false_ne_true

theorem receives_of_polls (hpolls : c.task.polls = true) : c.task.receives = true := by
  generalize c.task = task at hpolls
  cases task with
  | receive source => rfl
  | query request => rfl
  | _ => exact hpolls

/-- What a call that polls makes of a frame that was delivered. -/
theorem takeChunk_takes (c : Call) (due : Option Duration) (early : Bool) (taken : Nat)
    (f : Frame.Received) (moment : Duration) (bus : Bus) :
    Takes c due early taken ⟨moment, .ok (some f)⟩ bus (c.takeChunk taken f.payload bus) := by
  rw [Call.takeChunk]
  split
  · rename_i e hparse
    exact .fails (by simp only [Hearing.closes?, hparse])
  · rename_i hparse
    exact .closes (by simp only [Hearing.closes?, hparse])
  · rename_i chunk hparse
    simp only
    by_cases hid : chunk.id = Subframe.toHost
    · have hopen : Hearing.closes? ⟨moment, .ok (some f)⟩ = none := by
        simp only [Hearing.closes?, hparse, if_pos hid]
      have hchunk : Hearing.chunk? ⟨moment, .ok (some f)⟩ = some chunk := by
        simp only [Hearing.chunk?, hparse, if_pos hid]
      have hcollects : Takes c due early taken ⟨moment, .ok (some f)⟩ bus _ :=
        .collects hopen hchunk
      -- The chunk is for the host; only the channel decides whether its data count.
      rw [if_neg (not_not_intro hid)]
      by_cases hchannel : chunk.channel = c.client.config.channel
      · rw [if_neg (not_not_intro hchannel)]
        simp only [Hearing.data, hchunk, if_pos hchannel] at hcollects
        exact hcollects
      · -- A frame of another channel adds nothing, but gives the device more time.
        rw [if_pos hchannel]
        simp only [Hearing.data, hchunk, if_neg hchannel, Client.receive, List.append_nil,
          List.length_nil, Nat.add_zero] at hcollects
        exact hcollects
    · rw [if_pos hid]
      exact .closes (by simp only [Hearing.closes?, hparse, if_neg hid])

theorem received_takes (hpolls : c.task.polls = true) (due : Option Duration) (early : Bool)
    (taken : Nat) (result : Reception.Result) (moment : Duration) (bus : Bus) :
    Takes c due early taken ⟨moment, result⟩ bus (c.received due early taken result bus) := by
  unfold Call.received
  split
  · rename_i f
    rw [takeFrame_of_polls hpolls]
    exact takeChunk_takes c due early taken f moment bus
  · split
    · rename_i source htask
      exact absurd htask (not_receive_of_polls hpolls source)
    · -- A frame of another device: the round listens on while it has time.
      rw [lost_of_polls hpolls]
      cases early with
      | true => exact .passes rfl rfl rfl
      | false => exact .gives rfl rfl rfl
  · rename_i e
    split
    · rename_i source htask
      exact absurd htask (not_receive_of_polls hpolls source)
    · rw [lost_of_polls hpolls]
      -- An error that passes ends the round, and one of the link fails it.
      by_cases htransient : e.isTransient = true
      · rw [if_pos htransient]
        exact .closes (if_pos htransient)
      · rw [if_neg htransient]
        exact .fails (if_neg htransient)

/-- How a round ends does not depend on the stage at which it is. -/
theorem endRound_stage (c : Call) (stage : Stage) (taken : Nat) (bus : Bus) :
    { c with stage }.endRound taken bus = c.endRound taken bus := by
  rcases c with ⟨task, client, started, limit, stage'⟩
  cases task with
  | _ => rfl

theorem endRound_now (c : Call) (taken : Nat) (bus : Bus) :
    (c.endRound taken bus).2.now = bus.now :=
  (Call.endRound_settles c taken bus).now

/-- The end of a round is no time to listen. -/
theorem endRound_leaves (hpolls : c.task.polls = true) {taken : Nat}
    (hafter : c.after (c.endRound taken bus).1 = some c') : c'.isReceiving = false := by
  rw [← lost_of_polls hpolls] at hafter
  exact Call.lost_leaves hafter

/-- A poll has got what its round has collected, and answers with the number of
    those bytes unless it fails. -/
theorem Ends.poll (hends : Ends c drained log move) (htask : c.task = .poll) :
    c.clientAfter move.1 = c.client.receive (collected c.client.config.channel log) ∧
      ∀ answer, Call.ended move.1 = some (.ok answer) →
        answer = .count (collected c.client.config.channel log).length := by
  have hround : ∀ log taken bus, (c.keeping log).endRound taken bus =
      (c.keeping log).handOn (.ok (.count taken)) bus := by
    intro log taken bus
    simp only [Call.endRound, Call.keeping, htask]
  -- What closes the round adds nothing to what it has collected.
  have hclosing : ∀ {h : Hearing} {log}, h.closes? ≠ none →
      collected c.client.config.channel (log ++ [h]) =
        collected c.client.config.channel log :=
    fun hcloses => collected_of_mute (chunk?_of_closes hcloses) _ _
  cases hends with
  | missed hopen hnow =>
      rw [hround]
      refine ⟨rfl, fun answer hanswer => ?_⟩
      exact (Except.ok.inj (Option.some.inj hanswer)).symm
  | closed hopen hcloses hnow =>
      rw [hround, hclosing (by rw [hcloses]; rintro ⟨⟩)]
      refine ⟨rfl, fun answer hanswer => ?_⟩
      exact (Except.ok.inj (Option.some.inj hanswer)).symm
  | failed hopen hcloses hnow =>
      rw [hclosing (by rw [hcloses]; rintro ⟨⟩)]
      exact ⟨rfl, by rintro answer ⟨⟩⟩
  | expired hopen hlimit hup => exact ⟨rfl, by rintro answer ⟨⟩⟩

/-- What a round comes to in the end. -/
structure Over (c : Call) (drained : Duration) (log : List Hearing) (move : Call.Move) : Prop where
  inTime : InTime c.client drained log
  before : move.2.now ≤ deadline c.client.config drained log
  ends : Ends c drained log move

theorem sent_of_polls (hpolls : c.task.polls = true) (bus : Bus) :
    c.sent bus = c.await (some (bus.now + c.client.config.timeout)) 0 bus := by
  rw [Call.sent]
  generalize c.task = task at hpolls
  cases task with
  | poll => rfl
  | read size => rfl
  | readLine => rfl
  | _ => exact absurd hpolls Bool.false_ne_true

theorem onlyFrom_of_polls (hpolls : c.task.polls = true) :
    c.onlyFrom = some c.client.destination := by
  rw [Call.onlyFrom]
  split
  · rename_i source htask
    exact absurd htask (not_receive_of_polls hpolls source)
  · rfl

/-- A call that listens anew is what its log makes of it. -/
theorem under_await (bus : Bus) {due : Duration}
    (hdeadline : due = deadline c.client.config drained log) (hsince : drained ≤ bus.now)
    (hbefore : bus.now ≤ due) (hinTime : InTime c.client drained log)
    (hstill : ∀ h ∈ log, h.closes? = none) :
    Under c drained due log { c.keeping log with
      stage := .receiving (some due) ((some due).all (bus.now < ·))
        (collected c.client.config.channel log).length .start } bus where
  stage := by
    refine ⟨_, .start, rfl, fun hearly => ?_, Reception.sound_start _⟩
    rw [Option.all_some, decide_eq_false_iff_not] at hearly
    exact Nat.not_lt.mp hearly
  deadline := hdeadline
  since := hsince
  before := hbefore
  inTime := hinTime
  still := hstill

theorem still_snoc (hstill : ∀ h ∈ log, h.closes? = none) (hopen : h.closes? = none) :
    ∀ g ∈ log ++ [h], g.closes? = none := by
  intro g hg
  rcases List.mem_append.mp hg with hearlier | hlast
  · exact hstill g hearlier
  · rw [List.mem_singleton.mp hlast]
    exact hopen

/-- A call in a round hears something, and the clock stands still for that. -/
structure Hears (c : Call) (drained due : Duration) (early : Bool) (log : List Hearing)
    (h : Hearing) (c' : Call) (bus bus' : Bus) : Prop where
  under : Under c drained due log c' bus
  call : ∃ r, c' = { c.keeping log with
    stage := .receiving (some due) early (collected c.client.config.channel log).length r }
  late : early = false → due ≤ bus.now
  hearing : c'.hearing bus = [h]
  moment : h.moment = bus.now
  now : bus'.now = bus.now
  source : ∀ f, h.result = .ok (some f) → f.source = c.client.destination

section Hears

variable {due : Duration} {early : Bool} (hhears : Hears c drained due early log h c' bus bus')
include hhears

theorem Hears.inTime : InTime c.client drained (log ++ [h]) := by
  have hunder := hhears.under
  refine hunder.inTime.snoc ?_ ?_ hhears.source
  · rw [hhears.moment]
    exact hunder.since
  · rw [hhears.moment, ← hunder.deadline]
    exact hunder.before

theorem Hears.endRound (taken : Nat) : c'.endRound taken bus' =
    (c.keeping log).endRound taken bus' := by
  rcases hhears.call with ⟨r, hc'⟩
  rw [hc']
  exact endRound_stage _ _ _ _

/-- The round ends with what was heard. -/
theorem Hears.over (hmute : h.chunk? = none) {move : Call.Move}
    (hafter : ∀ c'', c'.after move.1 = some c'' → c''.isReceiving = false)
    (hnow : move.2.now = bus'.now) (hends : Ends c drained (log ++ [h]) move) :
    Call.Advances id (Over c drained) (Under c drained) due log c' bus move := by
  refine .ends hafter ?_
  rw [hhears.hearing]
  refine ⟨hhears.inTime, ?_, hends⟩
  rw [deadline_of_mute hmute, ← hhears.under.deadline, hnow, hhears.now]
  exact hhears.under.before

/-- The call listens on, until the deadline that there is now. -/
theorem Hears.again (id : Nat) (hopen : h.closes? = none)
    (hless : bus'.wire.arrivals.weight < bus.wire.arrivals.weight) {due' : Duration}
    (hdue : due' = deadline c.client.config drained (log ++ [h])) (hbefore : bus'.now ≤ due') :
    Call.Advances id (Over c drained) (Under c drained) due log c' bus
      ((c.keeping (log ++ [h])).await (some due')
        (collected c.client.config.channel (log ++ [h])).length bus') := by
  have hsince : drained ≤ bus'.now := by
    rw [hhears.now]
    exact hhears.under.since
  refine .goes due' rfl hless ?_
  rw [hhears.hearing]
  exact under_await bus' hdue hsince hbefore hhears.inTime (still_snoc hhears.under.still hopen)

/-- What is heard in a round keeps the invariant or ends the round. -/
theorem Hears.advances (hpolls : c.task.polls = true)
    (hless : h.closes? = none → bus'.wire.arrivals.weight < bus.wire.arrivals.weight)
    {move : Call.Move} (htakes : Takes c' (some due) early
      (collected c.client.config.channel log).length h bus' move) :
    Call.Advances id (Over c drained) (Under c drained) due log c' bus move := by
  rcases hhears.call with ⟨r, hc'⟩
  have hunder := hhears.under
  have hmoment : bus'.now = h.moment := hhears.now.trans hhears.moment.symm
  have hpolls' : c'.task.polls = true := by
    rw [hc']
    exact hpolls
  cases htakes with
  | closes hcloses =>
      have hmute := chunk?_of_closes (by rw [hcloses]; rintro ⟨⟩)
      refine hhears.over hmute (fun c'' => endRound_leaves hpolls') (endRound_now _ _ _) ?_
      rw [hhears.endRound]
      exact .closed hunder.still hcloses hmoment
  | fails hcloses =>
      have hmute := chunk?_of_closes (by rw [hcloses]; rintro ⟨⟩)
      refine hhears.over hmute (fun c'' hafter => absurd hafter Call.after_over_ne) rfl ?_
      rw [hc']
      exact .failed hunder.still hcloses hmoment
  | passes hopen hmute hearly =>
      -- There is time left, and the call listens on with what it had.
      have hdue := deadline_of_mute hmute c.client.config drained log
      have hagain := hhears.again id hopen (hless hopen)
        (hunder.deadline.trans hdue.symm) (hhears.now ▸ hunder.before)
      rw [keeping_of_mute hmute, collected_of_mute hmute] at hagain
      rw [hc'] at hagain ⊢
      exact hagain
  | gives hopen hmute hlate =>
      -- It was listening since the deadline, so that has come now.
      have hreached : bus'.now = due := by
        rw [hhears.now]
        exact Nat.le_antisymm hunder.before (hhears.late hlate)
      refine hhears.over hmute (fun c'' => endRound_leaves hpolls') (endRound_now _ _ _) ?_
      rw [hhears.endRound, ← keeping_of_mute hmute c log,
        ← collected_of_mute hmute c.client.config.channel log]
      refine .missed (still_snoc hunder.still hopen) ?_
      rw [deadline_of_mute hmute, hreached, hunder.deadline]
  | collects hopen hchunk =>
      -- The deadline moves away from the clock again.
      have hdue : bus'.now + c.client.config.followup =
          deadline c.client.config drained (log ++ [h]) := by
        rw [deadline_snoc, hchunk, hmoment]
        rfl
      have hagain := hhears.again id hopen (hless hopen) hdue (Nat.le_add_right _ _)
      rw [keeping_snoc, collected_snoc, List.length_append] at hagain
      rw [hc'] at hagain ⊢
      exact hagain

end Hears

/-- Every turn of a round keeps the invariant or ends the round. -/
theorem under_advances (hpolls : c.task.polls = true) {due : Duration}
    (hunder : Under c drained due log c' bus) :
    Call.Advances id (Over c drained) (Under c drained) due log c' bus (c'.step id bus) := by
  rcases hunder.stage with ⟨early, r, hc', hearly, hreception⟩
  have hstage : c'.stage = .receiving (some due) early
      (collected c.client.config.channel log).length r := by
    rw [hc']
  have hpolls' : c'.task.polls = true := by
    rw [hc']
    exact hpolls
  have hsound : c'.Sound := by
    simp only [Call.Sound, hstage]
    exact receives_of_polls hpolls'
  have hlistens := Call.step_listens hstage hsound hreception id
  generalize c'.step id bus = move at hlistens ⊢
  cases hlistens with
  | @reads r' bus' hstep hstill hless hheard =>
      -- Nothing was heard yet, so the history and the deadline are what they were.
      have hnext := Reception.step_sound c'.onlyFrom hreception (congrArg Prod.fst hstep)
      refine .goes due rfl hless ?_
      rw [Call.hearing_of_none hheard, List.append_nil]
      refine ⟨⟨early, r', by rw [hc'], fun hlate => ?_, ?_⟩, hunder.deadline,
        hstill.now ▸ hunder.since, hstill.now ▸ hunder.before, hunder.inTime, hunder.still⟩
      · rw [hstill.now]
        exact hearly hlate
      · rw [hstill.config]
        exact hnext
  | waits hstep hbefore hheard =>
      have hwakes : due ∈ c'.wakes := by
        rw [Call.wakes, hstage]
        exact List.mem_append_right _ (List.mem_singleton.mpr rfl)
      have hreceiving : c'.isReceiving = true :=
        Call.isReceiving_iff.mpr ⟨_, _, _, _, hstage⟩
      -- The call has asked for its deadline, and the clock does not go past that.
      refine .waits hreceiving hwakes hbefore fun later hprompt => ?_
      refine ⟨⟨early, r, hc', fun hlate => ?_, ?_⟩, hunder.deadline, ?_, ?_, hunder.inTime,
        hunder.still⟩
      · exact absurd (hearly hlate) (Nat.not_le.mpr hbefore)
      · rw [hprompt.link]
        exact hreception
      · exact Nat.le_trans hunder.since (Nat.le_of_lt hprompt.after)
      · exact hprompt.wakes due hwakes hbefore
  -- The limit of the whole call ends it before the round has come to its end.
  | expires hstep hbefore hlimit hup hheard =>
      refine .ends (fun c'' hafter => absurd hafter Call.after_over_ne) ?_
      rw [Call.hearing_of_none hheard, List.append_nil]
      rw [hc'] at hlimit hup ⊢
      exact ⟨hunder.inTime, hunder.deadline ▸ hunder.before,
        .expired hunder.still hlimit hup⟩
  | misses hstep hpassed hheard =>
      -- The clock stops at the deadline, so the round ends exactly there.
      have hreached : bus.now = due := Nat.le_antisymm hunder.before hpassed
      rw [lost_of_polls hpolls']
      refine .ends (fun c'' => endRound_leaves hpolls') ?_
      rw [Call.hearing_of_none hheard, List.append_nil, hc', endRound_stage]
      refine ⟨hunder.inTime, ?_, .missed hunder.still (hreached.trans hunder.deadline)⟩
      rw [endRound_now, ← hunder.deadline]
      exact hunder.before
  | @hears result bus' hstep hstill hless hheard =>
      -- Frames of other sources do not come through the filter.
      have hsource : ∀ f, result = .ok (some f) → f.source = c.client.destination := by
        intro f hresult
        rw [hresult] at hstep
        refine Reception.step_source hstep _ ?_
        rw [onlyFrom_of_polls hpolls', hc']
        rfl
      have hhears : Hears c drained due early log ⟨bus.now, result⟩ c' bus bus' :=
        ⟨hunder, ⟨r, hc'⟩, hearly, Call.hearing_of_some hheard, rfl, hstill.now, hsource⟩
      refine hhears.advances hpolls (fun hopen => ?_)
        (received_takes hpolls' (some due) early _ result bus.now bus')
      exact hless.resolve_right (ne_closed_of_open hopen)

/-- Every round of a poll ends, and collects what it should. From the moment at
    which the frame that asks for stream bytes has been sent, the call listens
    until the round is over, whatever arrives and whenever the clock stops. It
    hears the device alone, and nothing after the deadline that was set by then:
    the timeout of the client at first, and its follow-up time after each stream
    sub-frame, of whatever channel. The round is over when the deadline has come,
    and before that only with a frame that begins otherwise, with an error, or
    with the time of the call. In all cases the client has got the data of the
    stream sub-frames of its channel, in order, and a poll that does not fail
    answers with their number. -/
theorem round_concludes (hpolls : c.task.polls = true) (hstage : c.stage = .sending d)
    (hdrain : d.step bus = (.over (.ok ()), bus')) (id : Nat) :
    c.Concludes id (fun log move =>
      InTime c.client bus'.now log ∧ move.2.now ≤ deadline c.client.config bus'.now log ∧
        Ends c bus'.now log move ∧
        (c.task = .poll →
          c.clientAfter move.1 =
              c.client.receive (collected c.client.config.channel log) ∧
            ∀ answer, Call.ended move.1 = some (.ok answer) →
              answer = .count (collected c.client.config.channel log).length))
      [] bus := by
  have hstep : c.step id bus = c.await (some (bus'.now + c.client.config.timeout)) 0 bus' := by
    rw [Call.step_of_drained hstage hdrain, sent_of_polls hpolls]
  have hheard : c.heard bus = none := by
    simp only [Call.heard, hstage]
  have hnothing : c.keeping [] = c := by
    simp only [Call.keeping, collected, List.flatMap_nil, Client.receive, List.append_nil]
  -- The invariant holds with an empty history: the deadline is a timeout after the drain.
  have hunder : Under c bus'.now (bus'.now + c.client.config.timeout) [] _ bus' :=
    under_await bus' rfl (Nat.le_refl _) (Nat.le_add_right _ _)
      ⟨fun _ h => absurd h List.not_mem_nil, fun earlier _ later h => absurd h.symm (by simp),
        fun _ h => absurd h List.not_mem_nil⟩
      fun _ h => absurd h List.not_mem_nil
  rw [hnothing] at hunder
  refine .goes hstep rfl ?_
  rw [Call.hearing_of_none hheard, List.append_nil]
  refine (Call.Concludes.of_invariant (under_advances hpolls) hunder).mono fun log move hover => ?_
  exact ⟨hover.inTime, hover.before, hover.ends, hover.ends.poll⟩

/-- A frame with stream bytes that a device sends on the first channel. -/
def streamed (source : UInt8) (bytes : List UInt8) : Frame where
  source := source
  destination := 0
  payload := Stream.payload Subframe.toHost 1 bytes

/-- Device 5 answers in two pieces, and goes on within the follow-up time, behind a
    frame from device 6. -/
def answering : Bus where
  now := .ofMillis 10
  wire := { arrivals := [
    (.ofMillis 20, .data 0x54 (((streamed 5 [0x68, 0x69]).bytes.take 6).drop 1)),
    (.ofMillis 30, .data 1 ((streamed 5 [0x68, 0x69]).bytes.drop 7)),
    (.ofMicros 30050, .data 0x54 ((streamed 6 [0x3f]).bytes.drop 1)),
    (.ofMicros 30090, .data 0x54 ((streamed 5 [0x21]).bytes.drop 1))] }

/-- A poll of device 5 collects what both of its frames bring. The first one leaves it
    with 100 µs, the one from device 6 with no more than that, and the second one moves
    the deadline once more. -/
theorem round_concludes_past_stray :
    let c : Call := { task := .poll, client := { destination := 5 }, stage := .sending .flushing }
    let stops := [15, 20, 30].map Duration.ofMillis ++ [30050, 30090, 30190].map Duration.ofMicros
    ∃ log move, c.look 0 20 stops [] answering = some (log, move) ∧
      log.map (·.moment) = [30000, 30050, 30090].map Duration.ofMicros ∧
      move.2.now = .ofMicros 30190 ∧ deadline {} answering.now log = .ofMicros 30190 ∧
      Ends c answering.now log move ∧
      c.clientAfter move.1 = c.client.receive [0x68, 0x69, 0x21] ∧
      Call.ended move.1 = some (.ok (.count 3)) := by
  intro c stops
  have hdrain : Drain.flushing.step answering = (.over (.ok ()), answering) := rfl
  -- Only the values that can be compared are computed; the theorem gives the rest.
  have hheard : (c.look 0 20 stops [] answering).map (fun (log, move) =>
      (log.map (·.moment), move.2.now, deadline {} answering.now log, collected 1 log,
        (Call.ended move.1).map (·.isOk))) =
      some ([30000, 30050, 30090].map Duration.ofMicros, Duration.ofMicros 30190,
        Duration.ofMicros 30190, [0x68, 0x69, 0x21], some true) := by
    decide +kernel
  rcases Option.map_eq_some_iff.mp hheard with ⟨⟨log, move⟩, hlook, hvalues⟩
  simp only [Prod.mk.injEq] at hvalues
  rcases hvalues with ⟨hmoments, hnow, hdeadline, hcollected, hended⟩
  rcases (round_concludes (c := c) rfl rfl hdrain 0).look hlook with ⟨_, _, hends, hpoll⟩
  rcases hpoll rfl with ⟨hclient, hanswer⟩
  have hchannel : c.client.config.channel = 1 := rfl
  rw [hchannel, hcollected] at hclient hanswer
  -- A poll that ends well has its count from the theorem.
  rcases Option.map_eq_some_iff.mp hended with ⟨e | answer, hresult, hok⟩
  · exact absurd hok Bool.false_ne_true
  · rw [hanswer answer hresult] at hresult
    exact ⟨log, move, hlook, hmoments, hnow, hdeadline, hends, hclient, hresult⟩

end Round

end Multidrop
