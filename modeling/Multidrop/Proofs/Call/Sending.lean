import Multidrop.Proofs.Call.Carrying

/-!
# Calls That Send One Frame

A register request is sent in one frame. Where nothing else is on the bus, all that
is ever sent for it is that frame, and a frame that is not fit to be sent is found
out before anything is queued. So what was sent is a beginning of the frame at any
time, and all of it once the call waits for an answer or has ended well, whatever the
wire does meanwhile.

On a wire where nothing that is sent fails, there is no other way for the call to end.
How long that takes depends on how long the wire makes it wait. On one that is prompt,
which takes at least one byte whenever it is offered some, there is a bound: each turn
leaves fewer turns.

## Main definitions

* `Task.isRequest`: The tasks that send one frame.
* `Wire.Prompt`: Whatever is to be sent, the wire takes some of it at once.
* `Call.Sends`: A call on its way to have sent its frame.
* `Call.turnsLeft`: How many turns that takes at most on a prompt wire.
* `Call.Sending`: What a turn of such a call leads to.

## Theorems

* `Drain.step_prompt`: On a prompt wire, a drain gets on with every turn.
* `Call.Sends.sent_prefix`: At any time a beginning of the frame was sent.
* `Call.Sends.step`: What a turn leads to on any wire.
* `Call.Sends.sent_of_turnsLeft`: With no turn left, all of the frame was sent.
-/

namespace Multidrop

namespace Task

/-- Whether a task sends one frame, with a request. -/
def isRequest : Task → Bool
  | .query _ => true
  | .write _ => true
  | _ => false

theorem isRequest_cases {task : Task} (h : task.isRequest = true) :
    (∃ request, task = .query request) ∨ ∃ request, task = .write request := by
  cases task with
  | query request => exact Or.inl ⟨request, rfl⟩
  | write request => exact Or.inr ⟨request, rfl⟩
  | _ => exact absurd h Bool.false_ne_true

end Task

namespace Wire

/-- Whatever is to be sent, the wire takes some of it at once. -/
structure Prompt (w : Wire) : Prop where
  credit : w.credit = none
  writes : ∀ rule ∈ w.writeRules, ∃ count, rule = .atMost (count + 1)
  flushes : ∀ rule ∈ w.flushRules, rule = .pass

variable {w : Wire} {offered : List UInt8}

theorem Prompt.obliging (h : w.Prompt) : w.Obliging where
  writes := by
    intro rule hrule
    rcases h.writes rule hrule with ⟨count, hcount⟩
    rw [hcount]
    exact Nat.succ_pos count
  flushes := by
    intro rule hrule
    rw [h.flushes rule hrule]
    trivial

theorem Intact.prompt {w' : Wire} (h : w.Intact w') (hprompt : w.Prompt) : w'.Prompt := by
  rw [h]
  exact ⟨hprompt.credit, hprompt.writes, hprompt.flushes⟩

theorem Prompt.spend (h : w.Prompt) (now : Duration) (offered : List UInt8) :
    (w.spend now offered).1 = .ready offered.length ∧ (w.spend now offered).2.Prompt := by
  rw [Wire.spend, h.credit]
  exact ⟨rfl, h.credit, h.writes, h.flushes⟩

theorem Prompt.write (h : w.Prompt) (hoffered : offered ≠ []) (now : Duration) :
    ∃ count, (w.write now offered).1 = .ready (count + 1) ∧ (w.write now offered).2.Prompt := by
  have hsome : ∀ {bytes : List UInt8}, bytes ≠ [] → ∃ count, bytes.length = count + 1 :=
    fun hbytes => Nat.exists_eq_succ_of_ne_zero fun hnone =>
      hbytes (List.eq_nil_of_length_eq_zero hnone)
  have hwrites := h.writes
  rw [Wire.write.eq_def]
  rcases hrules : w.writeRules with _ | ⟨rule, rules⟩
  · -- Without a rule the wire takes all that it is offered.
    rcases hsome hoffered with ⟨count, hcount⟩
    rcases h.spend now offered with ⟨hready, hprompt⟩
    exact ⟨count, by rw [hready, hcount], hprompt⟩
  · rw [hrules] at hwrites
    -- A rule of a prompt wire takes at least one byte, and is used up by that.
    rcases hwrites rule List.mem_cons_self with ⟨most, hmost⟩
    have hprompt : Prompt { w with writeRules := rules } :=
      ⟨h.credit, fun rule hrule => hwrites rule (List.mem_cons_of_mem _ hrule), h.flushes⟩
    have htaken : offered.take (most + 1) ≠ [] := by
      rw [ne_eq, List.take_eq_nil_iff, not_or]
      exact ⟨Nat.succ_ne_zero most, hoffered⟩
    rcases hsome htaken with ⟨count, hcount⟩
    rcases hprompt.spend now (offered.take (most + 1)) with ⟨hready, hleft⟩
    rw [hmost]
    exact ⟨count, by simp only [hready, hcount], hleft⟩

theorem Prompt.flush (h : w.Prompt) (now : Duration) :
    (w.flush now).1 = .ready () ∧ (w.flush now).2.Prompt := by
  have hflushes := h.flushes
  rw [Wire.flush.eq_def]
  rcases hrules : w.flushRules with _ | ⟨rule, rules⟩
  · exact ⟨rfl, h.credit, h.writes, h.flushes⟩
  · rw [hrules] at hflushes
    rw [hflushes rule List.mem_cons_self]
    exact ⟨rfl, h.credit, h.writes, fun rule hrule => hflushes rule (List.mem_cons_of_mem _ hrule)⟩

end Wire

namespace Drain

variable {bus : Bus}

/-- How many turns of a drain are left at most, on a prompt wire. -/
def turnsLeft (d : Drain) (bus : Bus) : Nat :=
  match d with
  | .starting => bus.link.inFlight.length + bus.link.outbound.length + 3
  | .sending => bus.link.inFlight.length + 2
  | .flushing => 1

/-- On a prompt wire, a drain gets on with every turn. -/
theorem step_prompt (h : bus.wire.Prompt) (d : Drain) :
    (d.step bus).2.wire.Prompt ∧
      ((∃ d', (d.step bus).1 = .again d' ∧ d'.turnsLeft (d.step bus).2 < d.turnsLeft bus) ∨
        (d.step bus).1 = .over (.ok ())) := by
  cases d with
  | starting =>
      -- What is queued goes in flight, and both were counted before.
      refine ⟨h, Or.inl ⟨.sending, rfl, ?_⟩⟩
      simp only [turnsLeft, step, Link.takeOutbound, List.length_append]
      omega
  | sending =>
      rw [step]
      by_cases hflight : bus.link.inFlight = []
      · rw [if_pos hflight]
        exact ⟨h, Or.inl ⟨.flushing, rfl, by simp only [turnsLeft]; omega⟩⟩
      · rw [if_neg hflight, offer]
        rcases h.write hflight bus.now with ⟨count, hready, hprompt⟩
        generalize bus.wire.write bus.now bus.link.inFlight = written at hready hprompt
        rcases written with ⟨outcome, wire⟩
        simp only at hready
        rw [hready]
        refine ⟨hprompt, Or.inl ⟨.sending, rfl, ?_⟩⟩
        -- At least one byte has gone, which is what the turns are counted by.
        have hpos := List.length_pos_iff.mpr hflight
        simp only [turnsLeft, Link.accepted, List.length_drop]
        omega
  | flushing =>
      rw [step, flush]
      -- A prompt wire flushes at once, and the drain is over.
      rcases h.flush bus.now with ⟨hready, hprompt⟩
      generalize bus.wire.flush bus.now = flushed at hready hprompt
      rcases flushed with ⟨outcome, wire⟩
      simp only at hready
      rw [hready]
      exact ⟨hprompt, Or.inr rfl⟩

end Drain

namespace Call

variable {task : Task} {f : Frame} {c next : Call} {bus : Bus}

/-- Where a call that sends one frame has got to. -/
def Along (f : Frame) (c : Call) (bus : Bus) : Prop :=
  match c.stage with
  | .fresh => bus.traffic = [] ∧ bus.lock.holder = none
  | .queued => bus.traffic = [] ∧ bus.lock.holder = some 0
  | .sending d => f.Fits ∧ bus.traffic = f.bytes ∧ d.Behind f.bytes bus
  | .receiving .. => f.Fits ∧ bus.wire.sent = f.bytes ∧ c.task.receives = true
  | .pausing _ => False

/-- A call that has its bus to itself is on its way to have sent its frame. -/
structure Sends (task : Task) (f : Frame) (c : Call) (bus : Bus) : Prop where
  task : c.task = task
  frames : c.task.frames bus.link c.client = [f]
  unlimited : c.limit = none
  along : c.Along f bus

/-- How many turns are left at most until the frame is sent, on a prompt wire. -/
def turnsLeft (f : Frame) (c : Call) (bus : Bus) : Nat :=
  match c.stage with
  | .fresh => (Frame.group [f]).length + 5
  | .queued => (Frame.group [f]).length + 4
  | .sending d => d.turnsLeft bus
  | _ => 0

/-- On a prompt wire, a turn leaves fewer turns until the frame is sent. -/
def Closer (f : Frame) (c : Call) (bus : Bus) (next : Call) (left : Bus) : Prop :=
  bus.wire.Prompt → next.turnsLeft f left ≤ c.turnsLeft f bus - 1

/-- What a turn of such a call leads to. -/
inductive Sending (task : Task) (f : Frame) (c : Call) (bus : Bus) : Move → Prop where
  | again {next : Call} {left : Bus} (h : next.Sends task f left)
      (hcloser : c.Closer f bus next left) : Sending task f c bus (.again next, left)
  | waiting {left : Bus} (h : c.Sends task f left) (hcloser : c.Closer f bus c left) :
      Sending task f c bus (.waiting, left)
  /-- The frame is not fit to be sent. -/
  | refused {client : Client} {e : Frame.Error} {left : Bus} (hencode : f.encode = .error e)
      (hsent : left.wire.sent = []) : Sending task f c bus (.over (client, .error (.frame e)), left)
  /-- The wire fails. -/
  | failed {client : Client} {e : Link.Error} {left : Bus} (hfits : f.Fits)
      (hsent : left.wire.sent <+: f.bytes) (hfails : ¬ bus.wire.Obliging) :
      Sending task f c bus (.over (client, .error e), left)
  | sent {client : Client} {result : Result} {left : Bus} (hfits : f.Fits)
      (hsent : left.wire.sent = f.bytes) (hresult : task.receives = false → result = .ok .done) :
      Sending task f c bus (.over (client, result), left)

/-- The frame of a request is all that it sends. -/
theorem enter_of_request (hrequest : c.task.isRequest = true)
    (hframes : c.task.frames bus.link c.client = [f]) : c.enter bus = c.sendFrame f bus := by
  rcases c with ⟨task, client, started, limit, stage⟩
  cases task with
  | query request =>
      rw [← List.singleton_inj.mp hframes]
      rfl
  | write request =>
      rw [← List.singleton_inj.mp hframes]
      rfl
  | _ => exact absurd hrequest Bool.false_ne_true

theorem group_singleton (h : f.Fits) : Frame.group [f] = f.bytes := by
  rw [Frame.group_of_fits fun g hg => List.mem_singleton.mp hg ▸ h, List.flatMap_singleton]

theorem group_of_not_fits (h : ¬ f.Fits) : Frame.group [f] = [] := by
  rw [Frame.group_eq, Frame.fitting_of_not_fits fun hall => h (hall f List.mem_cons_self),
    List.flatMap_nil]

/-- So far a beginning of the frame was sent, and nothing if it is not fit to be sent. -/
theorem Sends.sent_prefix (h : c.Sends task f bus) : bus.wire.sent <+: Frame.group [f] := by
  have halong := h.along
  have hbegun := bus.sent_prefix_traffic
  unfold Along at halong
  split at halong
  · rw [halong.1] at hbegun
    exact hbegun.trans (List.nil_prefix)
  · rw [halong.1] at hbegun
    exact hbegun.trans (List.nil_prefix)
  · rw [halong.2.1] at hbegun
    exact (group_singleton halong.1).symm ▸ hbegun
  · have hwhole : Frame.group [f] = bus.wire.sent :=
      (group_singleton halong.1).trans halong.2.1.symm
    exact hwhole ▸ List.prefix_refl _
  · exact halong.elim

theorem Sends.sound (h : c.Sends task f bus) (hrequest : task.isRequest = true) : c.Sound := by
  have halong := h.along
  unfold Along at halong
  unfold Sound
  split at halong
  · rename_i hstage
    rw [hstage]
    trivial
  · rename_i hstage
    rw [hstage]
    trivial
  · -- A request is no drain.
    rename_i d hstage
    rw [hstage]
    intro hdrain
    rw [← h.task, hdrain] at hrequest
    exact absurd hrequest Bool.false_ne_true
  · rename_i hstage
    rw [hstage]
    exact halong.2.2
  · -- A request never pauses between rounds.
    exact halong.elim

/-- Time and changes of the wire leave a call on its way. -/
theorem Sends.drift (h : c.Sends task f bus) (now : Duration) (wire : Wire) :
    c.Sends task f (bus.drift now wire) :=
  ⟨h.task, h.frames, h.unlimited, h.along⟩

/-- A call that begins on an idle bus. -/
theorem sends_begun {owner : Client} (hframes : task.frames bus.link owner = [f])
    (htraffic : bus.traffic = []) (hfree : bus.lock.holder = none) (started : Duration) :
    Sends task f { task, client := owner, started } bus :=
  ⟨rfl, hframes, rfl, htraffic, hfree⟩

theorem work_fresh (hrequest : c.task.isRequest = true) (hstage : c.stage = .fresh) (id : Nat)
    (bus : Bus) : c.work id bus =
      (.again { c with stage := .queued }, { bus with lock := bus.lock.request id }) := by
  rcases c with ⟨task, client, started, limit, stage⟩
  rw [show stage = .fresh from hstage]
  cases task with
  | query request => rfl
  | write request => rfl
  | _ => exact absurd hrequest Bool.false_ne_true

/-- Where the frame is sent, no turns are left. -/
theorem closer_of_done {left : Bus} (h : next.turnsLeft f left = 0) : c.Closer f bus next left :=
  fun _ => h ▸ Nat.zero_le _

/-- A turn leaves the configuration of the link, and so the frame, as it is. -/
theorem Sends.stays (h : c.Sends task f bus) {stage : Stage} {left : Bus}
    (hconfig : left.link.config = bus.link.config)
    (halong : { c with stage }.Along f left) : { c with stage }.Sends task f left :=
  ⟨h.task, (Task.frames_of_config hconfig _ _).trans h.frames, h.unlimited, halong⟩

theorem Sends.step_sending (h : c.Sends task f bus) (hrequest : task.isRequest = true) {d : Drain}
    (hstage : c.stage = .sending d) : Sending task f c bus (c.work 0 bus) := by
  have halong := h.along
  rw [Along, hstage] at halong
  rcases halong with ⟨hfits, htraffic, hbehind⟩
  have hgoes := d.step_goes bus
  have hfails := fun hobliging : bus.wire.Obliging => (Drain.step_obliging hobliging d).2
  have hprompt := fun hprompt : bus.wire.Prompt => (Drain.step_prompt hprompt d).2
  have hturns : c.turnsLeft f bus = d.turnsLeft bus := by rw [turnsLeft, hstage]
  rw [work_eq_afterDrain hstage]
  generalize d.step bus = turn at hgoes hfails hprompt
  rcases turn with ⟨d' | _ | e | _, left⟩
  · -- What was written moves from the buffers to the wire, and the traffic stays.
    refine .again (h.stays hgoes.lock.2
      ⟨hfits, hgoes.traffic.trans htraffic, hgoes.behind hbehind⟩) fun hwire => ?_
    rcases hprompt hwire with ⟨next, hnext, hless⟩ | hover
    · rw [← Turn.again.inj hnext] at hless
      exact hturns ▸ Nat.le_sub_one_of_lt hless
    · exact absurd hover nofun
  · -- A wire that makes the drain wait takes nothing of what is queued.
    have hstays : { c with stage := .sending d }.Sends task f left :=
      h.stays hgoes.lock.2
        ⟨hfits, hgoes.traffic.trans htraffic, hbehind.of_same hgoes.grows hgoes.traffic⟩
    rw [← hstage] at hstays
    refine .waiting hstays fun hwire => ?_
    rcases hprompt hwire with ⟨next, hnext, -⟩ | hover
    · exact absurd hnext nofun
    · exact absurd hover nofun
  · -- The wire failed, with some front of the frame written.
    refine .failed hfits ?_ fun hobliging => hfails hobliging e rfl
    have hbegun := left.sent_prefix_traffic
    rw [hgoes.traffic, htraffic] at hbegun
    exact hbegun
  · -- What was flushed is all of the traffic, and that is the frame.
    rcases hgoes.ok with ⟨hflushing, _, hleft⟩
    rw [hflushing] at hbehind
    have hbegun := bus.sent_prefix_traffic
    rw [htraffic] at hbegun
    have hsent : left.wire.sent = f.bytes := by
      rw [hleft]
      exact (Wire.flush_sent bus.now bus.wire).trans (hbegun.eq_of_length_le hbehind.length_le)
    -- A query goes on to listen, and a write is over with that.
    rcases Task.isRequest_cases hrequest with ⟨request, htask⟩ | ⟨request, htask⟩
    · have hquery := h.task.trans htask
      rw [afterDrain, sent, hquery]
      exact .again (h.stays hgoes.lock.2 ⟨hfits, hsent, by rw [hquery]; rfl⟩) (closer_of_done rfl)
    · rw [afterDrain, sent, h.task.trans htask]
      exact .sent hfits hsent fun _ => rfl

/-- A query that waits for its reply has nothing more to send. -/
theorem Sends.step_receiving (h : c.Sends task f bus) (hrequest : task.isRequest = true)
    {deadline : Option Duration} {early : Bool} {taken : Nat} {r : Reception}
    (hstage : c.stage = .receiving deadline early taken r) :
    Sending task f c bus (c.work 0 bus) := by
  have halong := h.along
  rw [Along, hstage] at halong
  rcases halong with ⟨hfits, hsent, hreceives⟩
  have hstill := r.step_still c.onlyFrom bus
  rw [work_eq_afterReception hstage]
  generalize r.step c.onlyFrom bus = turn at hstill
  rcases turn with ⟨turn, left⟩
  have hleft : left.wire.sent = f.bytes := hstill.sent.trans hsent
  have hstays : ∀ stage, { c with stage }.Along f left → { c with stage }.Sends task f left :=
    fun stage => h.stays hstill.config
  rcases Task.isRequest_cases hrequest with ⟨request, htask⟩ | ⟨request, htask⟩
  · -- Whatever comes of the reply, the frame was sent, and an answer was waited for.
    have hquery := h.task.trans htask
    have hends : ∀ result, Sending task f c bus (c.handOn result left) := fun result =>
      .sent hfits hleft fun hnone => by
        rw [htask] at hnone
        exact absurd hnone Bool.true_eq_false.mp
    have hlost : Sending task f c bus (c.lost taken left) := by
      rw [lost, hquery]
      exact hends _
    -- The reception goes on, waits, or ends with an error, a stray frame or the reply.
    rcases turn with r' | _ | (e | _ | f')
    · exact .again (hstays _ ⟨hfits, hleft, hreceives⟩) (closer_of_done rfl)
    · rw [afterReception]
      split
      · exact hlost
      · have hwaits := hstays (.receiving deadline early taken r) ⟨hfits, hleft, hreceives⟩
        rw [← hstage] at hwaits
        exact .waiting hwaits (closer_of_done (by rw [turnsLeft, hstage]))
    · simp only [afterReception, received, hquery]
      split
      · exact hlost
      · exact hends _
    · simp only [afterReception, received, hquery]
      split
      · exact .again (hstays _ ⟨hfits, hleft, hreceives⟩) (closer_of_done rfl)
      · exact hlost
    · simp only [afterReception, received, takeFrame, hquery, takeReply]
      split
      · exact hends _
      · exact hends _
  · -- A write does not receive, so it is not at this stage.
    rw [h.task, htask] at hreceives
    exact absurd hreceives Bool.false_ne_true

theorem traffic_load (frames : List Frame) (bus : Bus) :
    { bus with link := bus.link.load frames }.traffic =
      bus.traffic ++ frames.flatMap Frame.bytes := by
  simp only [Bus.traffic, Link.load, List.append_assoc]

/-- What a turn leads to, whatever the wire does. -/
theorem Sends.step (h : c.Sends task f bus) (hrequest : task.isRequest = true) :
    Sending task f c bus (c.step 0 bus) := by
  have hown : c.task.isRequest = true := h.task ▸ hrequest
  have halong := h.along
  rw [step_of_unlimited h.unlimited]
  cases hstage : c.stage with
  | fresh =>
      -- Nobody else asks for the lock, so the call has it as soon as it asks.
      rw [Along, hstage] at halong
      have hlock : (bus.lock.request 0).holder = some 0 := by
        rw [Lock.request, halong.2]
      rw [work_fresh hown hstage]
      refine .again (h.stays rfl ⟨halong.1, hlock⟩) fun _ => ?_
      rw [turnsLeft, turnsLeft, hstage]
      exact Nat.le_refl _
  | queued =>
      rw [Along, hstage] at halong
      rw [work, hstage]
      simp only [if_pos halong.2, enter_of_request hown h.frames]
      -- A frame that fits is loaded whole; one that does not ends the call unsent.
      by_cases hfits : f.Fits
      · rw [sendFrame_of_fits hfits]
        have htraffic : { bus with link := bus.link.load [f] }.traffic = f.bytes := by
          rw [traffic_load, halong.1, List.nil_append, List.flatMap_singleton]
        refine .again (h.stays rfl ⟨hfits, htraffic, htraffic ▸ List.prefix_refl _⟩)
          fun _ => ?_
        -- What is in flight and queued is no more than the frame.
        have hlength := congrArg List.length htraffic
        simp only [Bus.traffic, List.length_append] at hlength
        rw [turnsLeft, turnsLeft, hstage, group_singleton hfits]
        simp only [Drain.turnsLeft]
        omega
      · rcases Frame.encode_of_not_fits hfits with ⟨e, hencode⟩
        rw [sendFrame, Link.queueFrame_error.mpr hencode]
        have hbegun := bus.sent_prefix_traffic
        rw [halong.1] at hbegun
        exact .refused hencode (List.prefix_nil.mp hbegun)
  | sending d => exact h.step_sending hrequest hstage
  | receiving deadline early taken r => exact h.step_receiving hrequest hstage
  | pausing moment =>
      rw [Along, hstage] at halong
      exact halong.elim

theorem step_prompt (hsound : c.Sound) (id : Nat) (h : bus.wire.Prompt) :
    (c.step id bus).2.wire.Prompt :=
  step_keeps hsound id h (fun _ hintact => hintact.prompt h) fun d => (Drain.step_prompt h d).1

/-- With no turn left, all of the frame was sent, and who does not wait for an answer
    has ended. -/
theorem Sends.sent_of_turnsLeft (h : c.Sends task f bus) (hleft : c.turnsLeft f bus = 0) :
    f.Fits ∧ bus.wire.sent = f.bytes ∧ task.receives = true := by
  have halong := h.along
  rw [Along] at halong
  rw [turnsLeft] at hleft
  cases hstage : c.stage with
  | fresh =>
      rw [hstage] at hleft
      exact absurd hleft (Nat.succ_ne_zero _)
  | queued =>
      rw [hstage] at hleft
      exact absurd hleft (Nat.succ_ne_zero _)
  -- A drain has a turn left at each of its stages.
  | sending d =>
      rw [hstage] at hleft
      cases d with
      | starting => exact absurd hleft (Nat.succ_ne_zero _)
      | sending => exact absurd hleft (Nat.succ_ne_zero _)
      | flushing => exact absurd hleft (Nat.succ_ne_zero _)
  | receiving deadline early taken r =>
      rw [hstage] at halong
      exact ⟨halong.1, halong.2.1, h.task ▸ halong.2.2⟩
  | pausing moment =>
      rw [hstage] at halong
      exact halong.elim

/-- As many turns as any call takes to send one frame. -/
def requestTurns : Nat :=
  Frame.headerSize + Varuint.maxSize + Frame.maxPayload + Frame.crcSize + 5

theorem turnsLeft_le (hstage : c.stage = .fresh) : c.turnsLeft f bus ≤ requestTurns := by
  have hgroup : (Frame.group [f]).length + 5 ≤ requestTurns := by
    by_cases hfits : f.Fits
    · rw [group_singleton hfits, Frame.length_bytes, Frame.wireSize]
      have hsize := Varuint.length_encode_le f.payload.length.toUInt32
      have hpayload := hfits.2.1
      rw [Varuint.length_encode] at hsize
      rw [requestTurns]
      omega
    · rw [group_of_not_fits hfits]
      decide
  rw [turnsLeft, hstage]
  exact hgroup

end Call

end Multidrop
