import Multidrop.Proofs.Call.Turns

/-!
# What a Turn of a Call Changes

A call that does not hold the lock leaves the link and the wire alone, and one
that holds it keeps it from the others until it hands it on. What a turn adds
to the traffic is the group of frames an exchange queues when it gets the
lock, and nothing else.

A turn never changes whom a client talks to, and calls that share a client
leave it as it is.

## Main definitions

* `Call.after`, `Call.clientAfter`, `Call.ended`: What is left after a turn.
* `Call.enters`: The turn at which an exchange has got the lock.
* `Call.Ahead`: What the drain of a call has seen to.

## Theorems

* `Goes.apart`: Who does not hold the lock changes nothing on the link.
* `Goes.holder`, `Goes.holder_of_ne`: Who holds the lock after a turn.
* `Goes.traffic`: What a turn adds to the traffic.
* `Goes.client`, `Goes.shared`, `Goes.again`: What a turn leaves as it is.
* `Goes.sound`, `Goes.ahead`: What a turn keeps true.
* `Goes.drained`: What a drain that succeeds has done.
-/

namespace Multidrop

namespace Call

/-- The call after a turn, unless it is over. -/
def after (c : Call) : Turn Call (Client × Result) → Option Call
  | .again c' => some c'
  | .waiting => some c
  | .over _ => none

/-- The client of a call after a turn. -/
def clientAfter (c : Call) : Turn Call (Client × Result) → Client
  | .again c' => c'.client
  | .waiting => c.client
  | .over final => final.1

/-- How a turn ends a call, if it does. -/
def ended : Turn Call (Client × Result) → Option Result
  | .over final => some final.2
  | _ => none

/-- Whether a turn is the one at which an exchange has got the lock. -/
def enters (id : Nat) (c : Call) (bus : Bus) : Bool :=
  c.stage = .queued ∧ bus.lock.holder = some id

variable {id who : Nat} {c c' : Call} {bus bus' : Bus} {move : Move} {data : List UInt8}

theorem enters_of_stage (h : c.stage ≠ .queued) : c.enters id bus = false :=
  decide_eq_false fun hc => h hc.1

theorem enters_of_holder (hstage : c.stage = .queued) (hholder : bus.lock.holder = some id) :
    c.enters id bus = true :=
  decide_eq_true ⟨hstage, hholder⟩

/-- At any other stage a turn adds nothing. -/
theorem nothing_of_stage {α : Type} {stage : Stage} (hstage : c.stage = stage)
    (hne : stage ≠ .queued) (added : List α) :
    (if c.enters id bus then added else []) = [] := by
  rw [if_neg]
  rw [enters_of_stage (by rw [hstage]; exact hne)]
  exact Bool.false_ne_true

/-! ### The link and the wire -/

/-- A call that waits leaves the lock alone and moves nothing but what it
    sends. -/
theorem Waits.lock (h : Waits id c bus bus') :
    bus'.lock = bus.lock ∧ bus'.link.config = bus.link.config ∧ bus'.traffic = bus.traffic := by
  cases h with
  | inLine hstage hholder => exact ⟨rfl, rfl, rfl⟩
  | sending hstage hgoes => exact ⟨hgoes.lock.1, hgoes.lock.2, hgoes.traffic⟩
  | receiving hstage hheard hstill => exact ⟨hstill.lock, hstill.config, hstill.traffic⟩
  | pausing hstage => exact ⟨rfl, rfl, rfl⟩

theorem Waits.apart (h : Waits id c bus bus') (hstage : ¬ c.stage.exchanging = true) :
    bus' = bus := by
  cases h with
  | inLine hqueued hholder => rfl
  | sending hsending hgoes => exact absurd (by rw [hsending]; rfl) hstage
  | receiving hreceiving hheard hstill => exact absurd (by rw [hreceiving]; rfl) hstage
  | pausing hpausing => rfl

theorem Waits.enters (h : Waits id c bus bus') : c.enters id bus = false := by
  cases h with
  | inLine hstage hholder => exact decide_eq_false fun hc => hholder hc.2
  | sending hstage hgoes => exact enters_of_stage (by rw [hstage]; exact Stage.noConfusion)
  | receiving hstage hheard hstill =>
      exact enters_of_stage (by rw [hstage]; exact Stage.noConfusion)
  | pausing hstage => exact enters_of_stage (by rw [hstage]; exact Stage.noConfusion)

/-- A call that does not hold the lock, and so is not in the middle of an
    exchange, leaves the link and the wire alone. -/
theorem Goes.apart (h : Goes id c bus move) (hholder : bus.lock.holder ≠ some id)
    (hstage : ¬ c.stage.exchanging = true) :
    move.2.link = bus.link ∧ move.2.wire = bus.wire := by
  cases h with
  | refuse hfresh => exact ⟨rfl, rfl⟩
  | answer hfresh hbuffered => exact ⟨rfl, rfl⟩
  | ask hfresh hbuffered => exact ⟨rfl, rfl⟩
  -- Loading takes the lock, and an exchange is already under way: neither is the case here.
  | enter hqueued hholder' hfits => exact absurd hholder' hholder
  | reject hqueued hholder' hnone => exact absurd hholder' hholder
  | send hsending hgoes => exact absurd (by rw [hsending]; rfl) hstage
  | unsent hsending hgoes => exact absurd (by rw [hsending]; rfl) hstage
  | sent hsending hgoes hread => exact absurd (by rw [hsending]; rfl) hstage
  | listen hsending hgoes hreceives => exact absurd (by rw [hsending]; rfl) hstage
  | receive hreceiving hheard hstill => exact absurd (by rw [hreceiving]; rfl) hstage
  | settle hreceiving hstill hsettles => exact absurd (by rw [hreceiving]; rfl) hstage
  | wake hpausing => exact ⟨rfl, rfl⟩
  | wait hwaits =>
      rw [hwaits.apart hstage]
      exact ⟨rfl, rfl⟩
  | expire hwaits =>
      rw [hwaits.apart hstage]
      exact ⟨rfl, rfl⟩

theorem Settles.config (h : c.Settles bus data move) :
    move.2.link = bus.link ∧ move.2.wire = bus.wire := by
  cases h with
  | listen => exact ⟨rfl, rfl⟩
  | finish hread => exact ⟨rfl, rfl⟩
  | answer hbuffered => exact ⟨rfl, rfl⟩
  | pause hbuffered => exact ⟨rfl, rfl⟩

/-- No turn changes the configuration of the link. -/
theorem Goes.config (h : Goes id c bus move) : move.2.link.config = bus.link.config := by
  cases h with
  | refuse hfresh => rfl
  | answer hfresh hbuffered => rfl
  | ask hfresh hbuffered => rfl
  | enter hqueued hholder hfits => rfl
  | reject hqueued hholder hnone => rfl
  | send hsending hgoes => exact hgoes.lock.2
  | unsent hsending hgoes => exact hgoes.lock.2
  | sent hsending hgoes hread => exact hgoes.lock.2
  | listen hsending hgoes hreceives => exact hgoes.lock.2
  | receive hreceiving hheard hstill => exact hstill.config
  | settle hreceiving hstill hsettles =>
      rw [hsettles.config.1]
      exact hstill.config
  | wake hpausing => rfl
  | wait hwaits => exact hwaits.lock.2.1
  | expire hwaits => exact hwaits.lock.2.1

/-- A turn adds to the traffic what an exchange queues when it has got the
    lock, and nothing else. -/
theorem Goes.traffic (h : Goes id c bus move) :
    move.2.traffic = bus.traffic ++
      if c.enters id bus then Frame.group (c.task.frames bus.link c.client) else [] := by
  cases h with
  | refuse hfresh => rw [nothing_of_stage hfresh Stage.noConfusion, List.append_nil]
  | answer hfresh hbuffered => rw [nothing_of_stage hfresh Stage.noConfusion, List.append_nil]
  | ask hfresh hbuffered =>
      rw [nothing_of_stage hfresh Stage.noConfusion, List.append_nil]
      rfl
  -- The one turn that adds to the traffic: the lock is held and the frames fit.
  | enter hqueued hholder hfits =>
      rw [if_pos (enters_of_holder hqueued hholder), Frame.group_of_fits hfits]
      simp only [Bus.traffic, Link.load, List.append_assoc]
  -- A batch that does not fit adds nothing, although the call has had its turn.
  | reject hqueued hholder hnone =>
      rw [if_pos (enters_of_holder hqueued hholder), Frame.group_eq, hnone, List.flatMap_nil,
        List.append_nil]
      rfl
  | send hsending hgoes =>
      rw [nothing_of_stage hsending Stage.noConfusion, List.append_nil]
      exact hgoes.traffic
  | unsent hsending hgoes =>
      rw [nothing_of_stage hsending Stage.noConfusion, List.append_nil]
      exact hgoes.traffic
  | sent hsending hgoes hread =>
      rw [nothing_of_stage hsending Stage.noConfusion, List.append_nil]
      exact hgoes.traffic
  | listen hsending hgoes hreceives =>
      rw [nothing_of_stage hsending Stage.noConfusion, List.append_nil]
      exact hgoes.traffic
  | receive hreceiving hheard hstill =>
      rw [nothing_of_stage hreceiving Stage.noConfusion, List.append_nil]
      exact hstill.traffic
  -- Whatever ends or pauses the call leaves the outbound buffer and the log as they are.
  | settle hreceiving hstill hsettles =>
      rw [nothing_of_stage hreceiving Stage.noConfusion, List.append_nil, ← hstill.traffic,
        Bus.traffic, hsettles.config.1, hsettles.config.2]
      rfl
  | wake hpausing => rw [nothing_of_stage hpausing Stage.noConfusion, List.append_nil]
  | wait hwaits =>
      rw [hwaits.enters, if_neg Bool.false_ne_true, List.append_nil]
      exact hwaits.lock.2.2
  | expire hwaits =>
      rw [hwaits.enters, if_neg Bool.false_ne_true, List.append_nil]
      exact hwaits.lock.2.2

/-! ### The lock -/

theorem leave_of_ne {lock : Lock} (hne : who ≠ id) (hwho : lock.holder = some who) :
    (lock.leave id).holder = some who := by
  rw [Lock.leave, if_neg]
  · exact hwho
  · rw [hwho, Option.some.injEq]
    exact hne

theorem request_of_held {lock : Lock} (hwho : lock.holder = some who) :
    (lock.request id).holder = some who := by
  rw [Lock.request, hwho]

/-- While someone else holds the lock, no turn takes it from them. -/
theorem Goes.holder_of_ne (h : Goes id c bus move) (hne : who ≠ id)
    (hwho : bus.lock.holder = some who)
    (hstage : c.stage.exchanging = true → bus.lock.holder = some id) :
    move.2.lock.holder = some who := by
  have hnot : bus.lock.holder ≠ some id := by
    rw [hwho, ne_eq, Option.some.injEq]
    exact hne
  cases h with
  | refuse hfresh => exact hwho
  | answer hfresh hbuffered => exact hwho
  | ask hfresh hbuffered => exact request_of_held hwho
  -- Everything from here to the end of the exchange is done by the holder alone.
  | enter hqueued hholder hfits => exact absurd hholder hnot
  | reject hqueued hholder hnone => exact absurd hholder hnot
  | send hsending hgoes => exact absurd (hstage (by rw [hsending]; rfl)) hnot
  | unsent hsending hgoes => exact absurd (hstage (by rw [hsending]; rfl)) hnot
  | sent hsending hgoes hread => exact absurd (hstage (by rw [hsending]; rfl)) hnot
  | listen hsending hgoes hreceives => exact absurd (hstage (by rw [hsending]; rfl)) hnot
  | receive hreceiving hheard hstill => exact absurd (hstage (by rw [hreceiving]; rfl)) hnot
  | settle hreceiving hstill hsettles => exact absurd (hstage (by rw [hreceiving]; rfl)) hnot
  | wake hpausing => exact hwho
  | wait hwaits =>
      rw [hwaits.lock.1]
      exact hwho
  -- A call that gives up leaves the queue, which is no concern of the holder.
  | expire hwaits =>
      refine leave_of_ne hne ?_
      rw [hwaits.lock.1]
      exact hwho

/-- A call in the middle of an exchange holds the lock, and holds it after a
    turn that does not end the exchange. -/
theorem Goes.holder (h : Goes id c bus move)
    (hstage : c.stage.exchanging = true → bus.lock.holder = some id)
    (hafter : c.after move.1 = some c') (hstage' : c'.stage.exchanging = true) :
    move.2.lock.holder = some id := by
  cases h with
  | refuse hfresh => simp only [after, reduceCtorEq] at hafter
  | answer hfresh hbuffered => simp only [after, reduceCtorEq] at hafter
  -- A call that joins the queue does not exchange yet, so nothing is claimed of it.
  | ask hfresh hbuffered =>
      rw [after, Option.some.injEq] at hafter
      rw [← hafter] at hstage'
      exact absurd hstage' Bool.false_ne_true
  | enter hqueued hholder hfits => exact hholder
  | reject hqueued hholder hnone => simp only [after, reduceCtorEq] at hafter
  | send hsending hgoes =>
      rw [hgoes.lock.1]
      exact hstage (by rw [hsending]; rfl)
  | unsent hsending hgoes => simp only [after, reduceCtorEq] at hafter
  | sent hsending hgoes hread => simp only [after, reduceCtorEq] at hafter
  | listen hsending hgoes hreceives =>
      rw [hgoes.lock.1]
      exact hstage (by rw [hsending]; rfl)
  | receive hreceiving hheard hstill =>
      rw [hstill.lock]
      exact hstage (by rw [hreceiving]; rfl)
  | settle hreceiving hstill hsettles =>
      -- The lock stays with the call if it listens on, and is handed on if not.
      have hholder := hstage (by rw [hreceiving]; rfl)
      rw [← hstill.lock] at hholder
      generalize c.kept (c.heard bus) = data at hsettles
      cases hsettles with
      | listen => exact hholder
      | finish hread => simp only [after, reduceCtorEq] at hafter
      | answer hbuffered => simp only [after, reduceCtorEq] at hafter
      | pause hbuffered =>
          rw [after, Option.some.injEq] at hafter
          rw [← hafter] at hstage'
          exact absurd hstage' Bool.false_ne_true
  | wake hpausing =>
      rw [after, Option.some.injEq] at hafter
      rw [← hafter] at hstage'
      exact absurd hstage' Bool.false_ne_true
  | wait hwaits =>
      rw [after, Option.some.injEq] at hafter
      rw [hwaits.lock.1]
      rw [← hafter] at hstage'
      exact hstage hstage'
  | expire hwaits => simp only [after, reduceCtorEq] at hafter

/-! ### The client -/

/-- Answering from the buffer changes what is there to read at most. -/
theorem buffered_eq (c : Call) :
    c.buffered.2 = { c.client with readBuffer := c.buffered.2.readBuffer } := by
  unfold buffered
  split
  · split
    · rfl
    · rfl
  · rfl
  · rfl

/-- A task that does not read leaves the buffer as it is. -/
theorem buffered_of_not_read (h : c.task.isRead = false) : c.buffered = (none, c.client) := by
  unfold buffered
  split
  · rename_i size htask
    simp only [htask, Task.isRead, Bool.true_eq_false] at h
  · rename_i htask
    simp only [htask, Task.isRead, Bool.true_eq_false] at h
  · rfl

theorem relieve_eq (c : Call) :
    c.task.relieve c.client =
      { c.client with writeBuffer := (c.task.relieve c.client).writeBuffer } := by
  unfold Task.relieve
  split
  · rfl
  · rfl

/-- A turn leaves all of a client but its buffers as it is. -/
theorem Goes.client (h : Goes id c bus move) :
    (c.clientAfter move.1).destination = c.client.destination ∧
      (c.clientAfter move.1).config = c.client.config := by
  have hbuffered : c.buffered.2.destination = c.client.destination ∧
      c.buffered.2.config = c.client.config := by
    rw [buffered_eq]
    exact ⟨rfl, rfl⟩
  cases h with
  | refuse hfresh => exact ⟨rfl, rfl⟩
  | answer hfresh hsome => exact hbuffered
  | ask hfresh hnone => exact hbuffered
  -- A flush empties its write buffer here, and nothing else of the client.
  | enter hqueued hholder hfits =>
      simp only [clientAfter]
      rw [relieve_eq]
      exact ⟨rfl, rfl⟩
  | reject hqueued hholder hnone => exact ⟨rfl, rfl⟩
  | send hsending hgoes => exact ⟨rfl, rfl⟩
  | unsent hsending hgoes => exact ⟨rfl, rfl⟩
  | sent hsending hgoes hread => exact ⟨rfl, rfl⟩
  | listen hsending hgoes hreceives => exact ⟨rfl, rfl⟩
  | receive hreceiving hheard hstill => exact ⟨rfl, rfl⟩
  | settle hreceiving hstill hsettles =>
      generalize c.kept (c.heard bus) = data at hsettles
      cases hsettles with
      | listen => exact ⟨rfl, rfl⟩
      | finish hread => exact ⟨rfl, rfl⟩
      | answer hsome => exact hbuffered
      | pause hnone => exact hbuffered
  | wake hpausing => exact ⟨rfl, rfl⟩
  | wait hwaits => exact ⟨rfl, rfl⟩
  | expire hwaits => exact ⟨rfl, rfl⟩

/-- A task that may share its client leaves the client as it is. -/
theorem Goes.shared (h : Goes id c bus move) (hshared : c.task.isShared = true) :
    c.clientAfter move.1 = c.client := by
  have hkinds : c.task.isRead = false ∧ c.task.polls = false ∧
      c.task.relieve c.client = c.client := by
    generalize c.task = task at hshared
    cases task with
    | query request => exact ⟨rfl, rfl, rfl⟩
    | write request => exact ⟨rfl, rfl, rfl⟩
    | refuse cause => exact ⟨rfl, rfl, rfl⟩
    | flush => exact absurd hshared Bool.false_ne_true
    | receive source => exact absurd hshared Bool.false_ne_true
    | drain => exact absurd hshared Bool.false_ne_true
    | poll => exact absurd hshared Bool.false_ne_true
    | read size => exact absurd hshared Bool.false_ne_true
    | readLine => exact absurd hshared Bool.false_ne_true
  rcases hkinds with ⟨hread, hpolls, hrelieve⟩
  have hbuffered := buffered_of_not_read hread
  -- A query hears frames as a poll does, but keeps nothing of them.
  have hkept : c.kept (c.heard bus) = [] := by
    unfold kept
    split
    · rw [if_neg (by rw [hpolls]; exact Bool.false_ne_true)]
    · rfl
  cases h with
  | refuse hfresh => rfl
  | answer hfresh hsome => simp only [clientAfter, hbuffered]
  | ask hfresh hnone => simp only [clientAfter, hbuffered]
  | enter hqueued hholder hfits => exact hrelieve
  | reject hqueued hholder hnone => rfl
  | send hsending hgoes => rfl
  | unsent hsending hgoes => rfl
  | sent hsending hgoes hread => rfl
  | listen hsending hgoes hreceives => rfl
  | receive hreceiving hheard hstill => rfl
  -- Settling takes what was heard into the read buffer, and that is nothing.
  | settle hreceiving hstill hsettles =>
      rw [hkept] at hsettles
      cases hsettles with
      | listen => simp only [clientAfter, Client.receive, List.append_nil]
      | finish hread => rfl
      | answer hsome => simp only [clientAfter, hbuffered]
      | pause hnone => simp only [clientAfter, hbuffered]
  | wake hpausing => rfl
  | wait hwaits => rfl
  | expire hwaits => rfl

theorem Settles.again (h : c.Settles bus data move) (hafter : c.after move.1 = some c') :
    c' = { c with client := c.clientAfter move.1, stage := c'.stage } := by
  cases h with
  | listen => exact Option.some.inj hafter ▸ rfl
  | finish hread => simp only [after, reduceCtorEq] at hafter
  | answer hsome => simp only [after, reduceCtorEq] at hafter
  | pause hnone => exact Option.some.inj hafter ▸ rfl

/-- A turn changes the client and the stage of a call at most. -/
theorem Goes.again (h : Goes id c bus move) (hafter : c.after move.1 = some c') :
    c' = { c with client := c.clientAfter move.1, stage := c'.stage } := by
  cases h with
  | refuse hfresh => simp only [after, reduceCtorEq] at hafter
  | answer hfresh hsome => simp only [after, reduceCtorEq] at hafter
  | ask hfresh hnone => exact Option.some.inj hafter ▸ rfl
  | enter hqueued hholder hfits => exact Option.some.inj hafter ▸ rfl
  | reject hqueued hholder hnone => simp only [after, reduceCtorEq] at hafter
  | send hsending hgoes => exact Option.some.inj hafter ▸ rfl
  | unsent hsending hgoes => simp only [after, reduceCtorEq] at hafter
  | sent hsending hgoes hread => simp only [after, reduceCtorEq] at hafter
  | listen hsending hgoes hreceives => exact Option.some.inj hafter ▸ rfl
  | receive hreceiving hheard hstill => exact Option.some.inj hafter ▸ rfl
  | settle hreceiving hstill hsettles => exact hsettles.again hafter
  | wake hpausing => exact Option.some.inj hafter ▸ rfl
  | wait hwaits => exact Option.some.inj hafter ▸ rfl
  | expire hwaits => simp only [after, reduceCtorEq] at hafter

/-! ### What stays true -/

theorem sound_enter (c : Call) :
    Sound { c with client := c.task.relieve c.client, stage := c.opening } := by
  unfold opening
  split
  · rename_i source htask
    simp only [Sound, htask, Task.receives]
  · simp only [Sound]
    intro htask
    rw [htask]
    rfl

/-- A call on its way stays sound. -/
theorem Goes.sound (h : Goes id c bus move) (hsound : c.Sound)
    (hafter : c.after move.1 = some c') : c'.Sound := by
  cases h with
  | refuse hfresh => simp only [after, reduceCtorEq] at hafter
  | answer hfresh hsome => simp only [after, reduceCtorEq] at hafter
  | ask hfresh hnone => exact Option.some.inj hafter ▸ trivial
  | enter hqueued hholder hfits => exact Option.some.inj hafter ▸ sound_enter c
  | reject hqueued hholder hnone => simp only [after, reduceCtorEq] at hafter
  | send hsending hgoes =>
      rw [← Option.some.inj hafter]
      simpa only [Sound, hsending] using hsound
  | unsent hsending hgoes => simp only [after, reduceCtorEq] at hafter
  | sent hsending hgoes hread => simp only [after, reduceCtorEq] at hafter
  -- Only here does a reception begin; every other stage keeps the one it has.
  | listen hsending hgoes hreceives => exact Option.some.inj hafter ▸ hreceives
  | receive hreceiving hheard hstill =>
      rw [← Option.some.inj hafter]
      simpa only [Sound, hreceiving] using hsound
  | settle hreceiving hstill hsettles =>
      generalize c.kept (c.heard bus) = data at hsettles
      cases hsettles with
      | listen =>
          rw [← Option.some.inj hafter]
          simpa only [Sound, hreceiving] using hsound
      | finish hread => simp only [after, reduceCtorEq] at hafter
      | answer hsome => simp only [after, reduceCtorEq] at hafter
      | pause hnone => exact Option.some.inj hafter ▸ trivial
  | wake hpausing => exact Option.some.inj hafter ▸ trivial
  | wait hwaits => exact Option.some.inj hafter ▸ hsound
  | expire hwaits => simp only [after, reduceCtorEq] at hafter

/-- Whatever drain a call is at has seen to all of the traffic, as far as it
    has come. -/
def Ahead (c : Call) (bus : Bus) : Prop :=
  ∀ d, c.stage = .sending d → d.Behind bus.traffic bus

/-- A call that is not sending has no drain that could be behind. -/
theorem ahead_of_stage (hstage : ∀ d, c.stage ≠ .sending d) : c.Ahead bus :=
  fun d hd => absurd hd (hstage d)

/-- While an exchange goes on nobody else queues anything, so its drain has
    still seen to all of the traffic after its own turns. -/
theorem Goes.ahead (h : Goes id c bus move) (hahead : c.Ahead bus)
    (hafter : c.after move.1 = some c') : c'.Ahead move.2 := by
  cases h with
  | refuse hfresh => simp only [after, reduceCtorEq] at hafter
  | answer hfresh hsome => simp only [after, reduceCtorEq] at hafter
  | ask hfresh hnone =>
      rw [← Option.some.inj hafter]
      exact ahead_of_stage fun d => Stage.noConfusion
  | enter hqueued hholder hfits =>
      rw [← Option.some.inj hafter]
      intro d hd
      simp only [opening] at hd
      split at hd
      · simp only [reduceCtorEq] at hd
      · rw [Stage.sending.injEq] at hd
        -- A drain that starts has all of the traffic before it.
        rw [← hd]
        exact List.prefix_refl _
  | reject hqueued hholder hnone => simp only [after, reduceCtorEq] at hafter
  -- The drain wrote from the front, and what it still holds lies behind that.
  | send hsending hgoes =>
      rw [← Option.some.inj hafter]
      intro d hd
      simp only [Stage.sending.injEq] at hd
      have htraffic := hgoes.traffic
      rw [← hd, htraffic]
      exact hgoes.behind (hahead _ hsending)
  | unsent hsending hgoes => simp only [after, reduceCtorEq] at hafter
  | sent hsending hgoes hread => simp only [after, reduceCtorEq] at hafter
  -- From here on the call drains no more, and the claim is about a drain.
  | listen hsending hgoes hreceives =>
      rw [← Option.some.inj hafter]
      exact ahead_of_stage fun d => Stage.noConfusion
  | receive hreceiving hheard hstill =>
      rw [← Option.some.inj hafter]
      exact ahead_of_stage fun d => Stage.noConfusion
  | settle hreceiving hstill hsettles =>
      generalize c.kept (c.heard bus) = data at hsettles
      cases hsettles with
      | listen =>
          rw [← Option.some.inj hafter]
          exact ahead_of_stage fun d => Stage.noConfusion
      | finish hread => simp only [after, reduceCtorEq] at hafter
      | answer hsome => simp only [after, reduceCtorEq] at hafter
      | pause hnone =>
          rw [← Option.some.inj hafter]
          exact ahead_of_stage fun d => Stage.noConfusion
  | wake hpausing =>
      rw [← Option.some.inj hafter]
      exact ahead_of_stage fun d => Stage.noConfusion
  -- Of the calls that wait, only one that drains has anything to show.
  | wait hwaits =>
      rw [← Option.some.inj hafter]
      intro d hd
      cases hwaits with
      | inLine hqueued hholder => simp only [hqueued, reduceCtorEq] at hd
      | sending hsending hgoes =>
          have hbehind := (hahead d hd).of_same hgoes.grows hgoes.traffic
          rw [← hgoes.traffic] at hbehind
          exact hbehind
      | receiving hreceiving hheard hstill => simp only [hreceiving, reduceCtorEq] at hd
      | pausing hpausing => simp only [hpausing, reduceCtorEq] at hd
  | expire hwaits => simp only [after, reduceCtorEq] at hafter

/-- A drain of a client that succeeds has sent all of the traffic, and had left
    nothing in the buffer. -/
theorem Goes.drained (h : Goes id c bus move) (hsound : c.Sound) (hahead : c.Ahead bus)
    (htask : c.task = .drain) {answer : Answer} (hended : ended move.1 = some (.ok answer)) :
    move.2.wire.sent = bus.traffic ∧ c.client.writeBuffer = [] := by
  have hbuffered := buffered_of_not_read (c := c) (by rw [htask]; rfl)
  cases h with
  | refuse hfresh => simp only [ended, Option.some.injEq, reduceCtorEq] at hended
  | answer hfresh hsome => simp only [hbuffered, reduceCtorEq] at hsome
  | ask hfresh hnone => simp only [ended, reduceCtorEq] at hended
  | enter hqueued hholder hfits => simp only [ended, reduceCtorEq] at hended
  | reject hqueued hholder hnone =>
      simp only [ended, Option.some.injEq, reduceCtorEq] at hended
  | send hsending hgoes => simp only [ended, reduceCtorEq] at hended
  | unsent hsending hgoes => simp only [ended, Option.some.injEq, reduceCtorEq] at hended
  | sent hsending hgoes hread =>
      rcases hgoes.ok with ⟨hflushing, hready, hbus⟩
      have hbehind := hahead _ hsending
      rw [hflushing] at hbehind
      simp only [Sound, hsending] at hsound
      refine ⟨?_, hsound htask⟩
      -- What was sent begins the traffic, and the drain has seen to all of it.
      have hprefix : bus.wire.sent <+: bus.traffic := by
        rw [Bus.traffic, List.append_assoc]
        exact List.prefix_append _ _
      have hsent := hprefix.eq_of_length_le hbehind.length_le
      rw [hbus]
      exact (Wire.flush_sent bus.now bus.wire).trans hsent
  | listen hsending hgoes hreceives => simp only [ended, reduceCtorEq] at hended
  | receive hreceiving hheard hstill => simp only [ended, reduceCtorEq] at hended
  | settle hreceiving hstill hsettles =>
      -- A drain does not wait for an answer.
      simp only [Sound, hreceiving, htask, Task.receives, Task.polls, Bool.false_eq_true] at hsound
  | wake hpausing => simp only [ended, reduceCtorEq] at hended
  | wait hwaits => simp only [ended, reduceCtorEq] at hended
  | expire hwaits => simp only [ended, Option.some.injEq, reduceCtorEq] at hended

end Call

end Multidrop
