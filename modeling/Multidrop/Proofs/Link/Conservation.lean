import Multidrop.Proofs.Frame.Encoding
import Multidrop.Proofs.History
import Multidrop.Proofs.Link.Drain

/-!
# Conservation of What Is Queued

Bytes and frames are queued on a link at any time, and drains put them on the
wire. A drain takes its turns whenever it is given them: in between, more is
queued, time passes and the wire changes its mind about what it accepts. A
drain may be dropped between any two turns, and another one called.

Nothing is lost, added or reordered in all this. At every moment what the wire
has accepted, what is in flight and what is queued make up everything that was
queued so far, in the order in which it was, and a drain that succeeds has
sent what was queued when it was called and flushed the wire behind it.

The lock of the bus is left aside. It lets one drain take turns at a time, and
none of this depends on it, so drains may overlap here as they like.

## Main definitions

* `Transmission`: A bus, the drains under way, and what has happened.
* `Transmission.Action`: What can be done next.
* `Transmission.act`, `Transmission.run`: Doing it.
* `Transmission.Event.bytes`: What an event puts behind what is queued.
* `Transmission.Kept`: The invariant of every run.

## Theorems

* `act_kept`: Every action keeps the invariant.
* `run_kept`: Every run keeps it.
* `conservation`: What is queued is accounted for at every moment of a run.
-/

namespace Multidrop

namespace Transmission

/-- What has happened on a link. -/
inductive Event where
  /-- Bytes were queued. -/
  | queued (bytes : List UInt8)
  /-- A frame was queued. -/
  | framed (f : Frame)
  /-- A frame was not queued. -/
  | refused (f : Frame) (cause : Frame.Error)
  /-- A drain was called. -/
  | called (id : Nat)
  /-- A drain came to its end. -/
  | ended (id : Nat) (result : Except Link.Error Unit)
  /-- A drain was dropped. -/
  | dropped (id : Nat)

/-- What can be done next. -/
inductive Action where
  | queue (bytes : List UInt8)
  | queueFrame (f : Frame)
  /-- Call a drain. -/
  | call (id : Nat)
  /-- Let a drain take a turn. -/
  | turn (id : Nat)
  /-- Drop a drain. -/
  | drop (id : Nat)
  /-- Let time pass, and the wire change in all but what was sent. -/
  | outside (now : Duration) (wire : Wire)

/-- What an event puts behind what is queued. -/
def Event.bytes : Event → List UInt8
  | .queued bytes => bytes
  | .framed f => f.encoding
  | _ => []

/-- Whether an event is that a frame was queued. -/
def Event.isFramed : Event → Bool
  | .framed _ => true
  | _ => false

end Transmission

/-- A bus, the drains that are under way on it, and what has happened. -/
structure Transmission where
  bus : Bus := {}
  drains : Nat → Option Drain := fun _ => none
  log : List Transmission.Event := []

namespace Transmission

/-- A link on which nothing has happened. -/
def start (config : Link.Config) : Transmission where
  bus := { link := { config } }

/-- Note how far a drain is, or that it is no longer under way. -/
def place (id : Nat) (d : Option Drain) (t : Transmission) : Transmission :=
  { t with drains := fun i => if i = id then d else t.drains i }

/-- Note what has happened. -/
def note (e : Event) (t : Transmission) : Transmission :=
  { t with log := t.log ++ [e] }

/-- Let a drain take a turn. -/
def turn (id : Nat) (d : Drain) (t : Transmission) : Transmission :=
  match d.step t.bus with
  | (.again d, bus) => { t with bus }.place id (some d)
  | (.waiting, bus) => { t with bus }
  | (.over result, bus) => ({ t with bus }.place id none).note (.ended id result)

/-- Do something. Nothing comes of a call of a drain that is under way, or of
    a turn of one that is not. -/
def act (t : Transmission) : Action → Transmission
  | .queue bytes =>
      { t with bus := { t.bus with link := t.bus.link.queue bytes } }.note (.queued bytes)
  | .queueFrame f =>
      match t.bus.link.queueFrame f with
      | .ok link => { t with bus := { t.bus with link } }.note (.framed f)
      | .error e => t.note (.refused f e)
  | .call id =>
      match t.drains id with
      | none => (t.place id (some .starting)).note (.called id)
      | some _ => t
  | .turn id =>
      match t.drains id with
      | none => t
      | some d => t.turn id d
  | .drop id => (t.place id none).note (.dropped id)
  | .outside now wire =>
      { t with bus := { t.bus with
          now := max t.bus.now now
          wire := t.bus.wire.outside wire } }

/-- Do one thing after another. -/
def run (t : Transmission) (actions : List Action) : Transmission :=
  actions.foldl act t

/-- The invariant of every run: all that was queued is accounted for, the
    counts are right, and every drain under way was called and has seen to
    what was queued by then. -/
structure Kept (t : Transmission) : Prop where
  traffic : t.bus.traffic = t.log.flatMap Event.bytes
  bytesSent : t.bus.link.statistics.bytesSent = t.bus.wire.sent.length
  framesSent : t.bus.link.statistics.framesSent = t.log.countP Event.isFramed
  called : ∀ id d, t.drains id = some d → ∃ before, History.Last (.called id) t.log before
  behind : ∀ id d before, t.drains id = some d → History.Last (.called id) t.log before →
    d.Behind (before.flatMap Event.bytes) t.bus

variable {t : Transmission} {id : Nat} {log before : List Event} {e : Event}

/-- The invariant survives whatever adds an event at most, moves the traffic
    forward and starts no drain. -/
theorem Kept.advance {t' : Transmission} (h : Kept t) (hlog : t'.log = t.log ++ [e])
    (he : ∀ id, e ≠ .called id) (htraffic : t'.bus.traffic = t.bus.traffic ++ e.bytes)
    (hbytes : t'.bus.link.statistics.bytesSent = t'.bus.wire.sent.length)
    (hframes : t'.bus.link.statistics.framesSent =
      t.bus.link.statistics.framesSent + if e.isFramed then 1 else 0)
    (hdrains : ∀ id d, t'.drains id = some d → t.drains id = some d)
    (hgrows : t.bus.Grows t'.bus) : Kept t' where
  traffic := by
    rw [htraffic, hlog, h.traffic, List.flatMap_append, List.flatMap_singleton]
  bytesSent := hbytes
  framesSent := by
    rw [hframes, hlog, h.framesSent, List.countP_append, List.countP_singleton]
  called := by
    intro id d hd
    rcases h.called id d (hdrains id d hd) with ⟨before, hlast⟩
    rw [hlog]
    exact ⟨before, hlast.snoc (he id)⟩
  behind := by
    intro id d before hd hlast
    rw [hlog] at hlast
    -- The new event is no call, so the last call of a drain is where it was.
    rcases hlast.of_snoc with ⟨hcalled, _⟩ | ⟨_, hlast⟩
    · exact absurd hcalled (he id)
    · refine (h.behind id d before (hdrains id d hd) hlast).mono hgrows ?_
      rw [htraffic]
      exact List.prefix_append _ _

theorem kept_start (config : Link.Config) : Kept (start config) where
  traffic := rfl
  bytesSent := rfl
  framesSent := rfl
  called := by
    intro id d hd
    simp only [start, reduceCtorEq] at hd
  behind := by
    intro id d before hd
    simp only [start, reduceCtorEq] at hd

/-- A drain that is under way after one was noted is that one, or was under way
    already. -/
theorem drains_place {d? : Option Drain} {id' : Nat} {d : Drain}
    (hd : (t.place id d?).drains id' = some d) :
    (id' = id ∧ d? = some d) ∨ (id' ≠ id ∧ t.drains id' = some d) := by
  simp only [place] at hd
  by_cases hid : id' = id
  · rw [if_pos hid] at hd
    exact Or.inl ⟨hid, hd⟩
  · rw [if_neg hid] at hd
    exact Or.inr ⟨hid, hd⟩

/-- A drain that is under way after one was over is another one. -/
theorem drains_place_none {id' : Nat} {d : Drain} (hd : (t.place id none).drains id' = some d) :
    t.drains id' = some d := by
  rcases drains_place hd with ⟨_, hnone⟩ | ⟨_, hold⟩
  · simp only [reduceCtorEq] at hnone
  · exact hold

theorem kept_queue (h : Kept t) (bytes : List UInt8) : Kept (t.act (.queue bytes)) := by
  refine h.advance (e := .queued bytes) rfl (fun _ => Event.noConfusion) ?_ h.bytesSent rfl
    (fun _ _ hd => hd) (.of_eq rfl rfl)
  simp only [act, note, Bus.traffic, Link.queue, Event.bytes, List.append_assoc]

theorem kept_queueFrame (h : Kept t) (f : Frame) : Kept (t.act (.queueFrame f)) := by
  simp only [act]
  split
  · rename_i link hqueue
    rw [Link.queueFrame_ok hqueue]
    refine h.advance (e := .framed f) rfl (fun _ => Event.noConfusion) ?_ h.bytesSent rfl
      (fun _ _ hd => hd) (.of_eq rfl rfl)
    simp only [note, Bus.traffic, Event.bytes, List.append_assoc]
  · rename_i cause hqueue
    refine h.advance (e := .refused f cause) rfl (fun _ => Event.noConfusion) ?_ h.bytesSent rfl
      (fun _ _ hd => hd) (.of_eq rfl rfl)
    simp only [note, Event.bytes, List.append_nil]

/-- A drain that is called has seen to nothing yet, and what is queued by then
    is all of the traffic. -/
theorem kept_call (h : Kept t) (id : Nat) : Kept (t.act (.call id)) := by
  simp only [act]
  split
  · rename_i hnone
    refine ⟨?_, h.bytesSent, ?_, ?_, ?_⟩
    · simp only [place, note, List.flatMap_append, List.flatMap_singleton, Event.bytes,
        List.append_nil]
      exact h.traffic
    · simp only [place, note, List.countP_append, List.countP_singleton, Event.isFramed,
        Bool.false_eq_true, if_false, Nat.add_zero]
      exact h.framesSent
    · -- Only the new drain has been called at this event.
      intro id' d hd
      rcases drains_place hd with ⟨hid, _⟩ | ⟨hid, hold⟩
      · rw [hid]
        exact ⟨t.log, .here _ _⟩
      · rcases h.called id' d hold with ⟨before, hlast⟩
        refine ⟨before, hlast.snoc ?_⟩
        rw [ne_eq, Event.called.injEq]
        exact fun hc => hid hc.symm
    · intro id' d before hd hlast
      -- The log before the call says what was queued if the call is the new one.
      rcases drains_place hd with ⟨hid, hstarting⟩ | ⟨hid, hold⟩
      · rcases hlast.of_snoc with ⟨_, hbefore⟩ | ⟨hcalled, _⟩
        · rw [← Option.some.inj hstarting, hbefore]
          simp only [Drain.Behind, place, note, h.traffic, List.prefix_refl]
        · exact absurd (by rw [hid]) hcalled
      · rcases hlast.of_snoc with ⟨hcalled, _⟩ | ⟨_, hlast⟩
        · rw [Event.called.injEq] at hcalled
          exact absurd hcalled.symm hid
        · exact h.behind id' d before hold hlast
  · exact h

/-- A turn of a drain moves the traffic forward, and what other drains have
    seen to stays seen to. -/
theorem kept_turn (h : Kept t) (id : Nat) : Kept (t.act (.turn id)) := by
  simp only [act]
  split
  · exact h
  · rename_i d hd
    have hgoes := d.step_goes t.bus
    simp only [turn]
    split
    · rename_i d' bus hstep
      rw [hstep] at hgoes
      -- The drain goes on, a step nearer to what was queued when it was called.
      have htraffic : bus.traffic = t.bus.traffic := hgoes.traffic
      refine ⟨?_, hgoes.bytesSent h.bytesSent, ?_, ?_, ?_⟩
      · exact htraffic.trans h.traffic
      · exact hgoes.framesSent.trans h.framesSent
      · intro id' d'' hd'
        rcases drains_place hd' with ⟨hid, _⟩ | ⟨_, hold⟩
        · rw [hid]
          exact h.called id d hd
        · exact h.called id' d'' hold
      · intro id' d'' before hd' hlast
        rcases drains_place hd' with ⟨hid, hnew⟩ | ⟨_, hold⟩
        · rw [hid] at hlast
          rw [← Option.some.inj hnew]
          exact hgoes.behind (h.behind id d before hd hlast)
        · exact (h.behind id' d'' before hold hlast).of_same hgoes.grows htraffic
    · -- It waits. What the wire took meanwhile only helps the others.
      rename_i bus hstep
      rw [hstep] at hgoes
      have htraffic : bus.traffic = t.bus.traffic := hgoes.traffic
      refine ⟨?_, hgoes.bytesSent h.bytesSent, ?_, h.called, ?_⟩
      · exact htraffic.trans h.traffic
      · exact hgoes.framesSent.trans h.framesSent
      · intro id' d' before hd' hlast
        exact (h.behind id' d' before hd' hlast).of_same hgoes.grows htraffic
    · -- It ends, which is noted, and is no drain any more.
      rename_i result bus hstep
      rw [hstep] at hgoes
      refine h.advance (e := .ended id result) rfl (fun _ => Event.noConfusion) ?_
        (hgoes.bytesSent h.bytesSent) hgoes.framesSent ?_ hgoes.grows
      · simp only [Event.bytes, List.append_nil]
        exact hgoes.traffic
      · intro id' d' hd'
        exact drains_place_none hd'

theorem kept_drop (h : Kept t) (id : Nat) : Kept (t.act (.drop id)) := by
  refine h.advance (e := .dropped id) rfl (fun _ => Event.noConfusion) ?_ h.bytesSent rfl ?_
    (.of_eq rfl rfl)
  · simp only [act, place, note, Event.bytes, List.append_nil]
  · intro id' d hd
    exact drains_place_none hd

theorem kept_outside (h : Kept t) (now : Duration) (wire : Wire) :
    Kept (t.act (.outside now wire)) := by
  refine ⟨h.traffic, h.bytesSent, h.framesSent, h.called, ?_⟩
  intro id d before hd hlast
  exact (h.behind id d before hd hlast).mono (.of_eq rfl rfl) (List.prefix_refl _)

/-- Every action keeps the invariant. -/
theorem act_kept (h : Kept t) (a : Action) : Kept (t.act a) := by
  cases a with
  | queue bytes => exact kept_queue h bytes
  | queueFrame f => exact kept_queueFrame h f
  | call id => exact kept_call h id
  | turn id => exact kept_turn h id
  | drop id => exact kept_drop h id
  | outside now wire => exact kept_outside h now wire

/-- Every run keeps the invariant, by induction on what is done. -/
theorem run_kept (h : Kept t) (actions : List Action) : Kept (t.run actions) := by
  induction actions generalizing t with
  | nil => exact h
  | cons a actions ih => exact ih (act_kept h a)

/-- A turn at which a drain ends is a turn of a drain that is under way. -/
theorem turn_of_ended {result : Except Link.Error Unit}
    (h : (t.act (.turn id)).log = t.log ++ [.ended id result]) :
    ∃ d bus, t.drains id = some d ∧ d.step t.bus = (.over result, bus) ∧
      (t.act (.turn id)).bus = bus := by
  simp only [act] at h ⊢
  split at h
  · exact absurd (List.self_eq_append_right.mp h) (List.cons_ne_nil _ _)
  · rename_i d hd
    simp only [turn] at h ⊢
    split at h
    · exact absurd (List.self_eq_append_right.mp h) (List.cons_ne_nil _ _)
    · exact absurd (List.self_eq_append_right.mp h) (List.cons_ne_nil _ _)
    · rename_i result' bus hstep
      have hlast := List.append_cancel_left h
      rw [List.cons.injEq, Event.ended.injEq] at hlast
      refine ⟨d, bus, hd, ?_, rfl⟩
      rw [hstep, hlast.1.2]

/-- What is queued on a link is accounted for at every moment of every run.
    What the wire has accepted, what is in flight and what is queued make up
    all the bytes and the encodings of all the frames that were queued, in
    order, and the counts are those of the bytes accepted and of the frames
    queued. A frame that is refused changes nothing. A drain that succeeds has
    put on the wire whatever was queued when it was called, and its last turn
    is a flush behind all of that which succeeds. -/
theorem conservation (config : Link.Config) (actions : List Action) :
    let t := (start config).run actions
    t.bus.wire.sent ++ t.bus.link.inFlight ++ t.bus.link.outbound =
        t.log.flatMap Event.bytes ∧
      t.bus.link.statistics.bytesSent = t.bus.wire.sent.length ∧
      t.bus.link.statistics.framesSent = t.log.countP Event.isFramed ∧
      (∀ f cause, f.encode = .error cause →
        (t.act (.queueFrame f)).bus = t.bus ∧
          (t.act (.queueFrame f)).log = t.log ++ [.refused f cause]) ∧
      (∀ id, (t.act (.turn id)).log = t.log ++ [.ended id (.ok ())] →
        ∃ before, History.Last (.called id) t.log before ∧
          before.flatMap Event.bytes <+: t.bus.wire.sent ∧
          (t.bus.wire.flush t.bus.now).1 = .ready () ∧
          (t.act (.turn id)).bus =
            { t.bus with wire := (t.bus.wire.flush t.bus.now).2 }) := by
  intro t
  have hkept : Kept t := run_kept (kept_start config) actions
  refine ⟨hkept.traffic, hkept.bytesSent, hkept.framesSent, ?_, ?_⟩
  · intro f cause hencode
    have hqueue := Link.queueFrame_error (l := t.bus.link).mpr hencode
    simp only [act, hqueue, note, and_self]
  · intro id hended
    -- Only a flush that succeeded ends a drain well, and by then all is written.
    rcases turn_of_ended hended with ⟨d, bus, hd, hstep, hbus⟩
    have hgoes := d.step_goes t.bus
    rw [hstep] at hgoes
    rcases hgoes.ok with ⟨hflushing, hready, hflushed⟩
    rcases hkept.called id d hd with ⟨before, hlast⟩
    have hbehind := hkept.behind id d before hd hlast
    rw [hflushing] at hbehind
    exact ⟨before, hlast, hbehind, hready, hbus.trans hflushed⟩

end Transmission

end Multidrop
