import Multidrop.Proofs.Session

/-!
# Exchanges Are Not Torn

An exchange queues all of its frames at the turn at which it has got the lock,
and nobody else queues, sends or receives anything before it hands the lock
on. What an exchange that is dropped has left behind is sent by the next one,
before its own frames.

So the wire carries the groups of frames of the exchanges one after another,
in the order in which they got the lock, and has come to some point of that at
any moment.

## Main definitions

* `Event.frames`: The frames of the exchange that has got the lock.
* `Event.group`: Their bytes.

## Theorems

* `run_traffic`: What was sent, is in flight and is queued are these groups.
* `exchanges_in_order`: What was sent is a prefix of them, and who does not
  hold the lock changes nothing.
-/

namespace Multidrop

namespace Session

/-- The frames of an exchange, at the event that it has got the lock. -/
def Event.frames (config : Link.Config) : Event → List Frame
  | .turned _ note =>
    match note.entered with
    | none => []
    | some client => note.task.frames { config } client
  | _ => []

/-- The bytes of these frames, or none if one of them is refused. -/
def Event.group (config : Link.Config) (e : Event) : List UInt8 :=
  Frame.group (e.frames config)

variable {s s' : Session} {config : Link.Config} {a : Action}

theorem group_wrote (client : Nat) (bytes : List UInt8) :
    (Event.wrote client bytes).group config = [] := rfl

theorem group_called (id client : Nat) (task : Task) :
    (Event.called id client task).group config = [] := rfl

theorem group_dropped (id : Nat) : (Event.dropped id).group config = [] := rfl

theorem Does.link_config (hdoes : s.Does a s') (hkept : Kept s) :
    s'.bus.link.config = s.bus.link.config := by
  cases hdoes with
  | refuse => rfl
  | create hcreate => rfl
  | write hc hfree => rfl
  | call hc hfree => rfl
  | @turn id e hid => exact (Call.step_goes (hkept.sound id e hid) id s.bus).config
  | drop hid => rfl
  | outside => rfl

/-- A turn adds to the traffic the group of the event it adds to the log. -/
theorem turn_traffic (hkept : Kept s) (hconfig : s.bus.link.config = config) {id : Nat}
    {e : Errand} (hid : s.errand? id = some e)
    (htraffic : s.bus.traffic = s.log.flatMap (Event.group config)) :
    (s.turn id e).bus.traffic = (s.turn id e).log.flatMap (Event.group config) := by
  have hgoes := Call.step_goes (hkept.sound id e hid) id s.bus
  have hframes : e.call.task.frames { config } e.call.client =
      e.call.task.frames s.bus.link e.call.client :=
    Task.frames_of_config hconfig.symm e.call.client e.call.task
  simp only [turn]
  rw [hgoes.traffic, List.flatMap_append, List.flatMap_singleton, htraffic]
  congr 1
  simp only [Event.group, Event.frames]
  by_cases henters : e.call.enters id s.bus = true
  · simp only [if_pos henters, hframes]
  · simp only [if_neg henters]
    rfl

/-- An action adds to the traffic the group of the event it adds to the
    log. -/
theorem Does.traffic (hdoes : s.Does a s') (hkept : Kept s)
    (hconfig : s.bus.link.config = config)
    (htraffic : s.bus.traffic = s.log.flatMap (Event.group config)) :
    s'.bus.traffic = s'.log.flatMap (Event.group config) := by
  cases hdoes with
  | refuse => exact htraffic
  | create hcreate => exact htraffic
  | write hc hfree =>
      rw [List.flatMap_append, List.flatMap_singleton, group_wrote, List.append_nil]
      exact htraffic
  | call hc hfree =>
      rw [List.flatMap_append, List.flatMap_singleton, group_called, List.append_nil]
      exact htraffic
  | turn hid => exact turn_traffic hkept hconfig hid htraffic
  | drop hid =>
      simp only [Session.drop]
      rw [List.flatMap_append, List.flatMap_singleton, group_dropped, List.append_nil]
      exact htraffic
  | outside => exact htraffic

/-- What was sent, is in flight and is queued are the groups of the exchanges
    so far. By induction on what is done. -/
theorem run_traffic (hkept : Kept s) (hconfig : s.bus.link.config = config)
    (htraffic : s.bus.traffic = s.log.flatMap (Event.group config)) (actions : List Action) :
    (s.run actions).bus.traffic = (s.run actions).log.flatMap (Event.group config) := by
  induction actions generalizing s with
  | nil => exact htraffic
  | cons a actions ih =>
      have hdoes := act_does s a
      exact ih (hdoes.kept hkept) ((hdoes.link_config hkept).trans hconfig)
        (hdoes.traffic hkept hconfig htraffic)

/-- Only a turn of whoever holds the lock changes the link, or the wire from
    this end. -/
theorem Does.apart (hdoes : s.Does a s') (hkept : Kept s)
    (hholder : ∀ id, s.bus.lock.holder = some id → a ≠ .turn id)
    (houtside : ∀ now wire, a ≠ .outside now wire) :
    s'.bus.link = s.bus.link ∧ s'.bus.wire = s.bus.wire := by
  cases hdoes with
  | refuse => exact ⟨rfl, rfl⟩
  | create hcreate => exact ⟨rfl, rfl⟩
  | write hc hfree => exact ⟨rfl, rfl⟩
  | call hc hfree => exact ⟨rfl, rfl⟩
  | turn hid => exact hkept.apart hid fun hc => hholder _ hc rfl
  | drop hid => exact ⟨rfl, rfl⟩
  | outside => exact absurd rfl (houtside _ _)

/-- Whoever clients are, whatever they are asked to do, in whatever order they
    take their turns and wherever their calls fail or are dropped: what was
    sent is a prefix of the groups of frames of all exchanges that have got
    the lock, in the order in which they did, and what is left of these groups
    is in flight or queued. An exchange gets its group queued at a turn at
    which it holds the lock, and holds it until it is over. While it does,
    nothing but its own turns changes the link, or the wire from this end. -/
theorem exchanges_in_order (config : Link.Config) (actions : List Action) :
    let s := (start config).run actions
    s.bus.wire.sent <+: s.log.flatMap (Event.group config) ∧
      s.bus.wire.sent ++ s.bus.link.inFlight ++ s.bus.link.outbound =
        s.log.flatMap (Event.group config) ∧
      (∀ id e, s.errand? id = some e →
        (e.call.enters id s.bus = true ∨ e.call.stage.exchanging = true) →
          s.bus.lock.holder = some id) ∧
      (∀ a, (∀ id, s.bus.lock.holder = some id → a ≠ .turn id) →
        (∀ now wire, a ≠ .outside now wire) →
          (s.act a).bus.link = s.bus.link ∧ (s.act a).bus.wire = s.bus.wire) := by
  intro s
  have hkept : Kept s := run_kept (kept_start config) actions
  have htraffic : s.bus.traffic = s.log.flatMap (Event.group config) :=
    run_traffic (kept_start config) rfl rfl actions
  refine ⟨?_, htraffic, ?_, fun a => (act_does s a).apart hkept⟩
  · rw [← htraffic, Bus.traffic, List.append_assoc]
    exact List.prefix_append _ _
  · -- A call that exchanges holds the lock, and one that enters is just getting it.
    intro id e hid hstage
    rcases hstage with henters | hexchanging
    · exact (of_decide_eq_true henters).2
    · exact hkept.holder id e hid hexchanging

end Session

end Multidrop
