import Mathlib.Algebra.GroupWithZero.Nat
import Multidrop.Proofs.Call.Receiving
import Multidrop.Proofs.Link.Reading

/-!
# Ledgers

The statistics of a link add up, whoever uses it and however. Any number of
calls of any kind are made by any clients, take turns in any order and are
dropped between any two of them. The wire behind the link does what it likes,
so that bytes, ends and faults come at any time.

A ledger notes the end of every reception, and the statistics are what those
readings say. A call that is dropped in the middle of a reception has counted
nothing, since only the end of a reception counts, and that is one turn.

## Main definitions

* `Link.Statistics.Sends`: Nothing was counted but what was sent.
* `Link.Statistics.AtMost`: No count is less than another.
* `Call.reading?`: The reading a turn of a call ends with.
* `Ledger`: A bus, the calls on it, and the readings so far.
* `Ledger.Counted`: The statistics are what the readings say.
* `Ledger.Kept`: The invariant of every run.

## Theorems

* `Call.step_counts`: What a turn of a call counts.
* `Ledger.act_kept`, `Ledger.run_kept`: Every action and every run keeps the
  invariant.
* `Ledger.act_atMost`: No action takes back what was counted.
* `Ledger.statistics_add_up`: The statistics of every run.
-/

namespace Multidrop

open Reception (Reading Notes)

namespace Link

/-- Between two moments nothing was counted but what was sent. -/
structure Statistics.Sends (before after : Statistics) : Prop where
  framesSent : before.framesSent ≤ after.framesSent
  bytesSent : before.bytesSent ≤ after.bytesSent
  received : after =
    { before with framesSent := after.framesSent, bytesSent := after.bytesSent }

/-- No count is less later on. -/
structure Statistics.AtMost (before after : Statistics) : Prop where
  framesSent : before.framesSent ≤ after.framesSent
  bytesSent : before.bytesSent ≤ after.bytesSent
  framesReceived : before.framesReceived ≤ after.framesReceived
  resyncs : before.resyncs ≤ after.resyncs
  bytesDiscarded : before.bytesDiscarded ≤ after.bytesDiscarded
  crcMismatches : before.crcMismatches ≤ after.crcMismatches
  strayFrames : before.strayFrames ≤ after.strayFrames
  shortFrames : before.shortFrames ≤ after.shortFrames

variable {limits : Frame.Limits} {before after noted : Statistics} {reading? : Option Reading}

theorem Statistics.Sends.refl (st : Statistics) : st.Sends st :=
  ⟨Nat.le_refl _, Nat.le_refl _, rfl⟩

theorem Statistics.AtMost.of_sends (h : before.Sends after) : before.AtMost after := by
  have hframes := h.framesSent
  have hbytes := h.bytesSent
  rw [h.received]
  exact ⟨hframes, hbytes, Nat.le_refl _, Nat.le_refl _, Nat.le_refl _, Nat.le_refl _,
    Nat.le_refl _, Nat.le_refl _⟩

/-- What a turn counts and what is sent are all added to what was counted. -/
theorem Statistics.AtMost.of_notes (h : Notes limits before reading? noted)
    (hsends : noted.Sends after) : before.AtMost after := by
  cases h with
  | nothing => exact .of_sends hsends
  | reading g hjudged =>
      have hframes := hsends.framesSent
      have hbytes := hsends.bytesSent
      rw [hsends.received]
      exact ⟨hframes, hbytes, Nat.le_add_right _ _, Nat.le_add_right _ _, Nat.le_add_right _ _,
        Nat.le_add_right _ _, Nat.le_add_right _ _, Nat.le_add_right _ _⟩

/-- A frame that is queued is one more frame sent. -/
theorem queueFrame_sends {f : Frame} {l l' : Link} (h : l.queueFrame f = .ok l') :
    l.statistics.Sends l'.statistics ∧ l'.config = l.config := by
  rw [queueFrame] at h
  split at h
  · cases h
  · rw [← Except.ok.inj h]
    exact ⟨⟨Nat.le_succ _, Nat.le_refl _, rfl⟩, rfl⟩

end Link

theorem Drain.Goes.sends {bus : Bus} {d : Drain}
    {move : Turn Drain (Except Link.Error Unit) × Bus} (h : d.Goes bus move) :
    bus.link.statistics.Sends move.2.link.statistics := by
  cases h with
  | take => exact .refl _
  | empty hempty => exact .refl _
  | accepted hle hsent => exact ⟨Nat.le_refl _, Nat.le_add_right _ _, rfl⟩
  | refused hsent hturn => exact .refl _
  | flushed hsent hflush => exact .refl _
  | unflushed hsent hturn => exact .refl _

namespace Call

/-- The reading a turn of a call ends with, if it ends a reception. -/
def reading? (c : Call) (bus : Bus) : Option Reading :=
  match c.stage with
  | .receiving _ _ _ reception => reception.reading? c.onlyFrom bus
  | _ => none

variable {c c' : Call} {id : Nat} {bus : Bus} {move : Move}

theorem reading?_of_not_receiving (h : c.isReceiving = false) : c.reading? bus = none := by
  rw [reading?]
  split
  · rename_i deadline early taken r hstage
    simp only [isReceiving, hstage, Bool.true_eq_false] at h
  · rfl

/-- A call that waits for a frame does with the link and the wire what its
    reception does. -/
theorem step_receiving_bus (hsound : c.Sound) {deadline : Option Duration} {early : Bool}
    {taken : Nat} {r : Reception} (hstage : c.stage = .receiving deadline early taken r)
    (id : Nat) (bus : Bus) :
    (c.step id bus).2.link = (r.step c.onlyFrom bus).2.link ∧
      (c.step id bus).2.wire = (r.step c.onlyFrom bus).2.wire ∧
      ∀ c', c.after (c.step id bus).1 = some c' → c'.reception = .start ∨
        c'.reception = r ∨ (r.step c.onlyFrom bus).1 = .again c'.reception := by
  have hreceives : c.task.receives = true := by
    simpa only [Sound, hstage] using hsound
  have hwork : (c.work id bus).2.link = (r.step c.onlyFrom bus).2.link ∧
      (c.work id bus).2.wire = (r.step c.onlyFrom bus).2.wire ∧
      ∀ c', c.after (c.work id bus).1 = some c' → c'.reception = .start ∨
        c'.reception = r ∨ (r.step c.onlyFrom bus).1 = .again c'.reception := by
    simp only [work, hstage]
    split
    · rename_i r' bus' hstep
      rw [hstep]
      refine ⟨rfl, rfl, fun c' hafter => Or.inr (Or.inr ?_)⟩
      rw [← Option.some.inj hafter]
      rfl
    · rename_i bus' hstep
      have hsettles := lost_settles c taken bus'
      rw [hstep]
      split
      · exact ⟨hsettles.config.1, hsettles.config.2,
          fun c' hafter => Or.inl (hsettles.reception hafter)⟩
      · refine ⟨rfl, rfl, fun c' hafter => Or.inr (Or.inl ?_)⟩
        rw [← Option.some.inj hafter, reception, hstage]
    · rename_i result bus' hstep
      have hsettles := received_settles hreceives deadline early taken result bus'
      rw [hstep]
      exact ⟨hsettles.config.1, hsettles.config.2,
        fun c' hafter => Or.inl (hsettles.reception hafter)⟩
  -- A call whose time is up ends where it would have waited, and leaves the bus
  -- as waiting does.
  rcases step_work id c bus with hstep | ⟨bus', e, hwaits, hstep⟩
  · rw [hstep]
    exact hwork
  · rw [hwaits] at hwork
    rw [hstep]
    exact ⟨hwork.1, hwork.2.1, fun c' hafter => absurd hafter after_over_ne⟩

/-- A turn of a call that does not wait for a frame counts what is sent at
    most. -/
theorem Goes.sends (h : Goes id c bus move) (hreceiving : c.isReceiving = false) :
    bus.link.statistics.Sends move.2.link.statistics := by
  have hwaiting : ∀ bus', Waits id c bus bus' →
      bus.link.statistics.Sends bus'.link.statistics := by
    intro bus' hwaits
    cases hwaits with
    | inLine hstage hholder => exact .refl _
    | sending hstage hgoes => exact hgoes.sends
    | receiving hstage hheard hstill =>
        simp only [isReceiving, hstage, Bool.true_eq_false] at hreceiving
    | pausing hstage => exact .refl _
  cases h with
  | refuse hfresh => exact .refl _
  | answer hfresh hbuffered => exact .refl _
  | ask hfresh hbuffered => exact .refl _
  -- The frames of the call are counted when they are loaded.
  | enter hqueued hholder hfits => exact ⟨Nat.le_add_right _ _, Nat.le_refl _, rfl⟩
  | reject hqueued hholder hnone => exact .refl _
  | send hsending hgoes => exact hgoes.sends
  | unsent hsending hgoes => exact hgoes.sends
  | sent hsending hgoes hread => exact hgoes.sends
  | listen hsending hgoes hreceives => exact hgoes.sends
  -- A call that receives may bump anything, and is excluded.
  | receive hstage hheard hstill =>
      simp only [isReceiving, hstage, Bool.true_eq_false] at hreceiving
  | settle hstage hstill hsettles =>
      simp only [isReceiving, hstage, Bool.true_eq_false] at hreceiving
  | wake hpausing => exact .refl _
  | wait hwaits => exact hwaiting _ hwaits
  | @expire e bus' hwaits => exact hwaiting bus' hwaits

/-- A turn of a call counts what its reading says, and what is sent. -/
theorem step_counts (hsound : c.Sound) (hreception : c.reception.Sound bus.link.config.limits)
    (id : Nat) : ∃ noted,
      Notes bus.link.config.limits bus.link.statistics (c.reading? bus) noted ∧
        noted.Sends (c.step id bus).2.link.statistics := by
  -- A call sends nothing while it waits for a frame, and has a reading only then.
  by_cases hreceiving : c.isReceiving = true
  · rcases isReceiving_iff.mp hreceiving with ⟨deadline, early, taken, r, hstage⟩
    simp only [reception, hstage] at hreception
    simp only [reading?, hstage]
    rw [(step_receiving_bus hsound hstage id bus).1]
    exact ⟨_, Reception.step_noted c.onlyFrom hreception, .refl _⟩
  · rw [Bool.not_eq_true] at hreceiving
    rw [reading?_of_not_receiving hreceiving]
    exact ⟨_, .nothing, (step_goes hsound id bus).sends hreceiving⟩

/-- Whatever is on the wire, what a call has taken of a frame is a part of
    one. -/
theorem step_reception (hsound : c.Sound)
    (hreception : c.reception.Sound bus.link.config.limits) (id : Nat)
    (hafter : c.after (c.step id bus).1 = some c') :
    c'.reception.Sound bus.link.config.limits := by
  by_cases hstage : c.stage.exchanging = true
  · rcases exchanging_cases hstage with ⟨d, hsending⟩ | hreceiving
    · rw [(step_sending hsending id bus).2 c' hafter]
      exact Reception.sound_start _
    · rcases isReceiving_iff.mp hreceiving with ⟨deadline, early, taken, r, hstage⟩
      simp only [reception, hstage] at hreception
      rcases (step_receiving_bus hsound hstage id bus).2.2 c' hafter with hstart | hsame | hagain
      · rw [hstart]
        exact Reception.sound_start _
      · rw [hsame]
        exact hreception
      · exact Reception.step_sound c.onlyFrom hreception hagain
  · rw [((step_goes hsound id bus).apart_wire hstage).2 c' hafter]
    exact Reception.sound_start _

end Call

/-- A bus, the calls on it, and the readings so far. A call that is over leaves
    its place empty. -/
structure Ledger where
  bus : Bus := {}
  calls : List (Option Call) := []
  readings : List Reading := []

namespace Ledger

/-- What can be done next. -/
inductive Action where
  | queue (bytes : List UInt8)
  | queueFrame (f : Frame)
  /-- A client, whatever is in its buffers, makes a call. -/
  | call (task : Task) (client : Client) (limit : Option Duration)
  /-- Let a call take a turn. -/
  | turn (id : Nat)
  /-- Drop a call. -/
  | drop (id : Nat)
  /-- Let time pass, and the wire change. -/
  | outside (now : Duration) (wire : Wire)

/-- A link on which nothing has been done. -/
def start (config : Link.Config) : Ledger where
  bus := { link := { config } }

/-- Let a call take a turn, and note its reading. -/
def turn (id : Nat) (c : Call) (l : Ledger) : Ledger :=
  let move := c.step id l.bus
  { bus := move.2
    calls := l.calls.set id (c.after move.1)
    readings := l.readings ++ (c.reading? l.bus).toList }

/-- Do something. Nothing comes of a turn of a call that is not under way. -/
def act (l : Ledger) : Action → Ledger
  | .queue bytes => { l with bus := { l.bus with link := l.bus.link.queue bytes } }
  | .queueFrame f =>
      match l.bus.link.queueFrame f with
      | .error _ => l
      | .ok link => { l with bus := { l.bus with link } }
  | .call task client limit =>
      { l with calls := l.calls ++ [some { task, client, started := l.bus.now, limit }] }
  | .turn id =>
      match l.calls[id]?.join with
      | none => l
      | some c => l.turn id c
  | .drop id =>
      { l with
        bus := { l.bus with lock := l.bus.lock.leave id }
        calls := l.calls.set id none }
  | .outside now wire => { l with bus := { l.bus with now := max l.bus.now now, wire } }

/-- Do one thing after another. -/
def run (l : Ledger) (actions : List Action) : Ledger :=
  actions.foldl act l

/-- The statistics are what the readings say. -/
structure Counted (limits : Frame.Limits) (readings : List Reading)
    (counted : Link.Statistics) : Prop where
  judged : ∀ g ∈ readings, g.Judged limits
  framesReceived : counted.framesReceived =
    readings.countP fun g => (g.fate? limits).any (· ≠ .rejected)
  resyncs : counted.resyncs = readings.countP fun g => g.discarded?.isSome
  bytesDiscarded : counted.bytesDiscarded =
    (readings.map fun g => g.discarded?.getD 0).sum
  crcMismatches : counted.crcMismatches = readings.countP (Reading.mismatches limits)
  strayFrames : counted.strayFrames = readings.countP fun g => g.fate? limits = some .stray
  shortFrames : counted.shortFrames = readings.countP fun g => g.fate? limits = some .short

variable {limits : Frame.Limits} {config : Link.Config} {readings : List Reading}
  {counted after : Link.Statistics} {l : Ledger}

theorem counted_nil (limits : Frame.Limits) : Counted limits [] {} :=
  ⟨fun _ hg => absurd hg List.not_mem_nil, rfl, rfl, rfl, rfl, rfl, rfl⟩

theorem Counted.sends (h : Counted limits readings counted) (hsends : counted.Sends after) :
    Counted limits readings after := by
  rw [hsends.received]
  exact ⟨h.judged, h.framesReceived, h.resyncs, h.bytesDiscarded, h.crcMismatches,
    h.strayFrames, h.shortFrames⟩

/-- What the statistics say stays right with what a turn counts. -/
theorem Counted.notes (h : Counted limits readings counted) {reading? : Option Reading}
    (hnotes : Notes limits counted reading? after) :
    Counted limits (readings ++ reading?.toList) after := by
  cases hnotes with
  | nothing =>
      rw [Option.toList_none, List.append_nil]
      exact h
  | reading g hjudged =>
      rw [Option.toList_some]
      -- Each counter moves by whether this one reading counts for it.
      refine ⟨?_, ?_, ?_, ?_, ?_, ?_, ?_⟩
      · intro g' hg'
        rcases List.mem_append.mp hg' with hbefore | hlast
        · exact h.judged g' hbefore
        · rw [List.mem_singleton.mp hlast]
          exact hjudged
      · rw [Reading.noted, List.countP_append, List.countP_singleton, h.framesReceived]
      · rw [Reading.noted, List.countP_append, List.countP_singleton, h.resyncs]
      · rw [Reading.noted, List.map_append, List.sum_append, List.map_singleton,
          List.sum_singleton, h.bytesDiscarded]
      · rw [Reading.noted, List.countP_append, List.countP_singleton, h.crcMismatches]
      · simp only [Reading.noted, List.countP_append, List.countP_singleton, h.strayFrames,
          decide_eq_true_eq]
      · simp only [Reading.noted, List.countP_append, List.countP_singleton, h.shortFrames,
          decide_eq_true_eq]

/-- The invariant of every run: the statistics are what the readings say, and
    each call has come as far as its stage says. -/
structure Kept (config : Link.Config) (l : Ledger) : Prop where
  link : l.bus.link.config = config
  sound : ∀ c, some c ∈ l.calls → c.Sound
  reception : ∀ c, some c ∈ l.calls → c.reception.Sound config.limits
  counted : Counted config.limits l.readings l.bus.link.statistics

theorem kept_start (config : Link.Config) : Kept config (start config) where
  link := rfl
  sound := fun _ hc => absurd hc List.not_mem_nil
  reception := fun _ hc => absurd hc List.not_mem_nil
  counted := counted_nil _

theorem mem_of_place {id : Nat} {c : Call} (h : l.calls[id]?.join = some c) :
    some c ∈ l.calls :=
  List.mem_of_getElem? (Option.join_eq_some_iff.mp h)

/-- A turn of a call keeps the invariant. -/
theorem turn_kept (h : Kept config l) {id : Nat} {c : Call} (hc : some c ∈ l.calls) :
    Kept config (l.turn id c) := by
  have hsound := h.sound c hc
  have hreception := h.reception c hc
  rw [← h.link] at hreception
  have hgoes := Call.step_goes hsound id l.bus
  rcases Call.step_counts hsound hreception id with ⟨noted, hnotes, hsends⟩
  rw [h.link] at hnotes
  -- Only the call whose turn it is has changed.
  refine ⟨hgoes.config.trans h.link, ?_, ?_, (h.counted.notes hnotes).sends hsends⟩
  · intro c' hc'
    rcases List.mem_or_eq_of_mem_set hc' with hother | hafter
    · exact h.sound c' hother
    · exact hgoes.sound hsound hafter.symm
  · intro c' hc'
    rcases List.mem_or_eq_of_mem_set hc' with hother | hafter
    · exact h.reception c' hother
    · rw [← h.link]
      exact Call.step_reception hsound hreception id hafter.symm

theorem act_kept (h : Kept config l) (a : Action) : Kept config (l.act a) := by
  cases a with
  | queue bytes => exact ⟨h.link, h.sound, h.reception, h.counted⟩
  | queueFrame f =>
      simp only [act]
      split
      · exact h
      · -- A frame that is queued counts as sent, and as nothing received.
        rename_i link hqueue
        rcases Link.queueFrame_sends hqueue with ⟨hsends, hconfig⟩
        exact ⟨hconfig.trans h.link, h.sound, h.reception, h.counted.sends hsends⟩
  | call task client limit =>
      refine ⟨h.link, fun c hc => ?_, fun c hc => ?_, h.counted⟩
      · rcases List.mem_append.mp hc with hbefore | hnew
        · exact h.sound c hbefore
        · rw [Option.some.inj (List.mem_singleton.mp hnew)]
          exact trivial
      · rcases List.mem_append.mp hc with hbefore | hnew
        · exact h.reception c hbefore
        · rw [Option.some.inj (List.mem_singleton.mp hnew)]
          exact Reception.sound_start _
  | turn id =>
      simp only [act]
      split
      · exact h
      · rename_i c hc
        exact turn_kept h (mem_of_place hc)
  | drop id =>
      -- What a call has taken of a frame was not counted yet, and never will be.
      refine ⟨h.link, fun c hc => ?_, fun c hc => ?_, h.counted⟩
      · rcases List.mem_or_eq_of_mem_set hc with hother | hnone
        · exact h.sound c hother
        · cases hnone
      · rcases List.mem_or_eq_of_mem_set hc with hother | hnone
        · exact h.reception c hother
        · cases hnone
  | outside now wire => exact ⟨h.link, h.sound, h.reception, h.counted⟩

/-- The invariant holds in every run. By induction on what is done. -/
theorem run_kept (h : Kept config l) (actions : List Action) : Kept config (l.run actions) := by
  induction actions generalizing l with
  | nil => exact h
  | cons a actions ih => exact ih (act_kept h a)

/-- No action takes back what was counted. -/
theorem act_atMost (h : Kept config l) (a : Action) :
    l.bus.link.statistics.AtMost (l.act a).bus.link.statistics := by
  have hsame : l.bus.link.statistics.AtMost l.bus.link.statistics :=
    .of_sends (.refl _)
  cases a with
  | queue bytes => exact hsame
  | queueFrame f =>
      simp only [act]
      split
      · exact hsame
      · rename_i link hqueue
        exact .of_sends (Link.queueFrame_sends hqueue).1
  | call task client limit => exact hsame
  | turn id =>
      simp only [act]
      split
      · exact hsame
      · rename_i c hc
        have hreception := h.reception c (mem_of_place hc)
        rw [← h.link] at hreception
        -- Only a turn can bump a counter, and it bumps by what it notes.
        rcases Call.step_counts (h.sound c (mem_of_place hc)) hreception id with
          ⟨noted, hnotes, hsends⟩
        exact .of_notes hnotes hsends
  | drop id => exact hsame
  | outside now wire => exact hsame

/-- A frame that is received is delivered, stray or short, and only one of the
    three. By induction on the readings. -/
theorem received_splits (h : ∀ g ∈ readings, g.Judged limits) :
    readings.countP (fun g => (g.fate? limits).any (· ≠ .rejected)) =
      readings.countP Reading.delivers +
        readings.countP (fun g => g.fate? limits = some .stray) +
        readings.countP (fun g => g.fate? limits = some .short) := by
  induction readings with
  | nil => rfl
  | cons g readings ih =>
      have hdelivers := (h g List.mem_cons_self).delivers_iff
      have hmore := ih fun g' hg' => h g' (List.mem_cons_of_mem _ hg')
      simp only [List.countP_cons, hmore, hdelivers, decide_eq_true_eq]
      cases g.fate? limits with
      | none =>
          simp only [Option.any_none, Bool.false_eq_true, reduceCtorEq, if_false]
          omega
      | some fate =>
          -- Each fate is counted once on either side, and a rejected frame on none.
          cases fate with
          | _ =>
              simp only [Option.any_some, ne_eq, reduceCtorEq, not_false_eq_true,
                not_true_eq_false, decide_true, decide_false, Bool.false_eq_true, Option.some.injEq,
                if_true, if_false]
              omega

/-- The statistics of a link add up, in every run and at every moment of it.
    A reading that has taken a frame, whether or not its checksum matches, came
    to what becomes of the frame, and every other one to an error that is not
    about a checksum. The frames received are those that were delivered, the
    stray ones and the short ones. Where checksums are ignored these are all
    frames that were there whole. Where they are enforced, those whose checksum
    does not match are left out, and they are the ones that were refused. What
    was thrown away is what the errors say, and nothing that was counted is ever
    taken back. -/
theorem statistics_add_up (config : Link.Config) (actions : List Action) :
    let l := (start config).run actions
    let counted := l.bus.link.statistics
    (∀ g ∈ l.readings,
      (∀ f, g.frame? config.limits = some f →
        (Reception.fate config.limits.crcPolicy g.onlyFrom f).Means f g.result) ∧
      (g.frame? config.limits = none → g.refuses = false ∧ ∃ e, g.result = .error e)) ∧
    counted.framesReceived =
      l.readings.countP Reading.delivers + counted.strayFrames + counted.shortFrames ∧
    counted.strayFrames = l.readings.countP (fun g => g.fate? config.limits = some .stray) ∧
    counted.shortFrames = l.readings.countP (fun g => g.fate? config.limits = some .short) ∧
    counted.crcMismatches = l.readings.countP (Reading.mismatches config.limits) ∧
    (config.limits.crcPolicy = .ignore →
      counted.framesReceived = l.readings.countP (fun g => (g.frame? config.limits).isSome) ∧
      ∀ g ∈ l.readings, g.refuses = false) ∧
    (config.limits.crcPolicy = .enforce →
      counted.framesReceived =
        l.readings.countP (fun g => (g.frame? config.limits).any (·.crcOk)) ∧
      ∀ g ∈ l.readings, g.mismatches config.limits = g.refuses) ∧
    counted.resyncs = l.readings.countP (fun g => g.discarded?.isSome) ∧
    counted.bytesDiscarded = (l.readings.map fun g => g.discarded?.getD 0).sum ∧
    ∀ a, counted.AtMost (l.act a).bus.link.statistics := by
  intro l counted
  have hkept : Kept config l := run_kept (kept_start config) actions
  have hcounted := hkept.counted
  have hjudged := hcounted.judged
  refine ⟨fun g hg => ⟨fun f hframe => ?_, fun hframe => ?_⟩, ?_, hcounted.strayFrames,
    hcounted.shortFrames, hcounted.crcMismatches, fun hpolicy => ⟨?_, fun g hg => ?_⟩,
    fun hpolicy => ⟨?_, fun g hg => ?_⟩, hcounted.resyncs, hcounted.bytesDiscarded,
    fun a => act_atMost hkept a⟩
  · -- A reading is judged by its frame, or it has none.
    cases hjudged g hg with
    | frame f' hframe' hmeans =>
        rw [hframe', Option.some.injEq] at hframe
        rw [← hframe]
        exact hmeans
    | failure e hnone hresult hrefuses => exact absurd (hnone.symm.trans hframe) nofun
  · cases hjudged g hg with
    | frame f hsome hmeans => exact absurd (hsome.symm.trans hframe) nofun
    | failure e hnone hresult hrefuses => exact ⟨hrefuses, e, hresult⟩
  · rw [hcounted.framesReceived, hcounted.strayFrames, hcounted.shortFrames]
    exact received_splits hjudged
  · rw [hcounted.framesReceived]
    exact congrArg (List.countP · _) (funext fun g => Reading.received_of_ignore hpolicy)
  · -- A policy that ignores checksums refuses no frame.
    rw [← Bool.not_eq_true, (hjudged g hg).refuses_iff]
    exact Reading.fate?_ne_rejected hpolicy
  · rw [hcounted.framesReceived]
    exact congrArg (List.countP · _) (funext fun g => Reading.received_of_enforce hpolicy)
  · rw [Bool.eq_iff_iff, (hjudged g hg).refuses_iff]
    exact (Reading.fate?_eq_rejected hpolicy).symm

end Ledger

end Multidrop
