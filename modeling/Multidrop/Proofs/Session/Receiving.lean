import Multidrop.Proofs.Call.Receiving
import Multidrop.Proofs.Link.Listening
import Multidrop.Proofs.Session.Exchanges

/-!
# What Is Read in a Session

The calls of a session take frames from one wire, one call at a time: the one
that holds the lock. So there is one reception at most, and what it has taken
goes before what is still to come. Nothing that anyone does changes these bytes
from the front, but for two things. A call that is answered takes the frame it
is answered with, and a call that gives up, or is dropped, takes along what it
has read of a frame.

In a run in which no call gives up in the middle of a frame, receptions follow
one another like the calls of one listener, whoever makes them, however they
end, and whatever happens in between. `Aligned` is this invariant: what was
heard are the answers to the stream so far, and they have left what is read in
part and what is still to come.

## Main definitions

* `reception`: The reception that is under way.
* `heard`: What was heard, and by whom.
* `brings`, `abandons`: What an action adds at the end, and what is lost.
* `Calm`: No call gives up in the middle of a frame.
* `Listening`: What holds of every session on a stream that flows.
* `Reads`: What an action does with what is to be read.
* `Aligned`: The invariant of every calm run.

## Theorems

* `act_reads`: An action does one of these things.
* `run_aligned`: Every calm run keeps the invariant.
-/

namespace Multidrop

/-- No client is asked to take whatever frame comes. -/
theorem Order.task_ne_receive (order : Order) (source : Option UInt8) :
    order.task ≠ .receive source := by
  have hbuild : ∀ operations task, (∀ request, task request ≠ .receive source) →
      Task.build operations task ≠ .receive source := by
    intro operations task htask
    unfold Task.build
    split
    · exact nofun
    · exact htask _
  cases order with
  | query operations => exact hbuild operations _ fun request => nofun
  | write operations => exact hbuild operations _ fun request => nofun
  | request operations =>
      refine hbuild operations _ fun request => ?_
      unfold Task.ofRequest
      split
      · exact nofun
      · exact nofun
  | _ => exact nofun

namespace Session

/-- The reception that is under way: that of the call that holds the lock. -/
def reception (s : Session) : Reception :=
  match s.bus.lock.holder.bind (errand? · s) with
  | some e => e.call.reception
  | none => .start

/-- What was heard at an event, and by which client. -/
def Event.heard : Event → Option (Nat × Reception.Result)
  | .turned _ note => note.heard.map (note.client, ·)
  | _ => none

/-- What was heard so far, and by which clients. -/
def heard (log : List Event) : List (Nat × Reception.Result) :=
  log.filterMap Event.heard

/-- Whom those who heard it had expected. -/
def expected (s : Session) : List (Option UInt8) :=
  (heard s.log).map fun entry => s.clients[entry.1]?.map Client.destination

/-- What an action puts behind what is to be read. -/
def brings (s : Session) : Action → Arrivals
  | .outside _ wire => wire.arrivals.drop s.bus.wire.arrivals.length
  | _ => []

/-- What an action takes away of what is to be read: the part of a frame that
    a call has read when it gives up or is dropped. -/
def abandons (s : Session) : Action → List UInt8
  | .turn id => ((s.errand? id).map fun e => e.call.abandons id s.bus).getD []
  | .drop id => ((s.errand? id).map fun e => e.call.reception.got).getD []
  | _ => []

/-- An action that leaves what is to be read where it is, puts behind it a
    stream that flows, and leaves it to others to answer. -/
def Extends (s : Session) : Action → Prop
  | .outside now wire => s.bus.wire.arrivals <+: wire.arrivals ∧
      (s.brings (.outside now wire)).Flow ∧ wire.Quiet
  | _ => True

/-- Things are done one after another, and no call gives up or is dropped in
    the middle of a frame. -/
def Calm (s : Session) : List Action → Prop
  | [] => True
  | a :: actions => s.Extends a ∧ s.abandons a = [] ∧ (s.act a).Calm actions

instance (s : Session) (a : Action) : Decidable (s.Extends a) :=
  match a with
  | .outside now wire =>
      inferInstanceAs (Decidable (s.bus.wire.arrivals <+: wire.arrivals ∧
        (s.brings (.outside now wire)).Flow ∧ wire.Quiet))
  | .create _ _ => isTrue trivial
  | .write _ _ => isTrue trivial
  | .call _ _ _ => isTrue trivial
  | .turn _ => isTrue trivial
  | .drop _ => isTrue trivial

instance decidableCalm (s : Session) : (actions : List Action) → Decidable (s.Calm actions)
  | [] => isTrue trivial
  | a :: actions =>
      haveI := decidableCalm (s.act a) actions
      inferInstanceAs (Decidable (s.Extends a ∧ s.abandons a = [] ∧ (s.act a).Calm actions))

/-- All that arrives while things are done one after another. -/
def received (s : Session) : List Action → List UInt8
  | [] => []
  | a :: actions => (s.brings a).bytes ++ (s.act a).received actions

/-- What holds of every session on a stream that flows: the reception that is
    under way knows what it has read, and nobody takes frames but those who
    have asked for them. -/
structure Listening (s : Session) : Prop where
  kept : Kept s
  ordered : ∀ id e, s.errand? id = some e → ∀ source, e.call.task ≠ .receive source
  quiet : s.bus.wire.Quiet
  flow : s.bus.wire.arrivals.Flow
  sound : s.reception.Sound s.bus.link.config.limits

/-- What an action does with what is to be read. -/
inductive Reads (s : Session) (a : Action) (s' : Session) : Prop where
  /-- Nothing is heard, and nothing changes but for what is put at the end or
      lost. Where something is lost, nobody reads on. -/
  | passes (hheard : heard s'.log = heard s.log)
      (hbytes : s.reception.got ++ s.bus.wire.coming ++ (s.brings a).bytes =
        s.abandons a ++ (s'.reception.got ++ s'.bus.wire.coming))
      (hlost : s.abandons a ≠ [] → s'.reception = .start)
  /-- A call is answered. -/
  | hears {who : Nat} {c : Client} {result : Reception.Result}
      (hc : s.clients[who]? = some c)
      (hheard : heard s'.log = heard s.log ++ [(who, result)])
      (hanswers : Reception.Answers s.bus.link.config.limits (some c.destination)
        (s.reception.got ++ s.bus.wire.coming) result s'.bus.wire.coming)
      (hstart : s'.reception = .start) (hnone : s.brings a = []) (hlost : s.abandons a = [])

variable {s s' : Session} {id : Nat} {e : Errand} {a : Action} {limits : Frame.Limits}
  {stream : List UInt8}

theorem heard_append (log more : List Event) : heard (log ++ more) = heard log ++ heard more :=
  List.filterMap_append

/-! ### The reception that is under way -/

theorem reception_of_not_exchanging {c : Call} (h : ¬ c.stage.exchanging = true) :
    c.reception = .start := by
  refine Call.reception_of_not_receiving (Bool.eq_false_iff.mpr fun hreceiving => h ?_)
  rcases Call.isReceiving_iff.mp hreceiving with ⟨deadline, early, taken, r, hstage⟩
  rw [hstage]
  rfl

theorem exchanging_of_receiving {c : Call} (h : c.isReceiving = true) :
    c.stage.exchanging = true := by
  rcases Call.isReceiving_iff.mp h with ⟨deadline, early, taken, r, hstage⟩
  rw [hstage]
  rfl

/-- A call in the middle of an exchange holds the lock, so its reception is the
    one that is under way. -/
theorem Kept.reception_eq (h : Kept s) (hid : s.errand? id = some e)
    (hstage : e.call.stage.exchanging = true) : s.reception = e.call.reception := by
  simp only [reception, h.holder id e hid hstage, Option.bind_some, hid]

theorem reception_start (h : ∀ id e, s.errand? id = some e → e.call.reception = .start) :
    s.reception = .start := by
  unfold reception
  split
  · rename_i e hholder
    rcases Option.bind_eq_some_iff.mp hholder with ⟨id, _, hid⟩
    exact h id e hid
  · rfl

/-- Where a call that was in no exchange does something, the reception stays
    the one it was. -/
theorem Kept.reception_persists (h : Kept s) (h' : Kept s') (id : Nat)
    (hothers : ∀ id', id' ≠ id → s'.errand? id' = s.errand? id')
    (hbefore : ∀ e, s.errand? id = some e → ¬ e.call.stage.exchanging = true)
    (hafter : ∀ e, s'.errand? id = some e → e.call.reception = .start) :
    s'.reception = s.reception := by
  by_cases hbusy : ∃ id₁ e₁, s.errand? id₁ = some e₁ ∧ e₁.call.stage.exchanging = true
  · rcases hbusy with ⟨id₁, e₁, hid₁, hstage⟩
    have hne : id₁ ≠ id := fun heq => hbefore e₁ (heq ▸ hid₁) hstage
    rw [h.reception_eq hid₁ hstage, h'.reception_eq ((hothers id₁ hne).trans hid₁) hstage]
  · have hidle : ∀ id₁ e₁, s.errand? id₁ = some e₁ → e₁.call.reception = .start :=
      fun id₁ e₁ hid₁ => reception_of_not_exchanging fun hstage => hbusy ⟨id₁, e₁, hid₁, hstage⟩
    rw [reception_start hidle]
    refine reception_start fun id₁ e₁ hid₁ => ?_
    by_cases heq : id₁ = id
    · exact hafter e₁ (heq ▸ hid₁)
    · exact hidle id₁ e₁ ((hothers id₁ heq).symm.trans hid₁)

/-- Where the call in the middle of an exchange does not go on with its
    reception, none is under way. -/
theorem Kept.reception_ends (h : Kept s) (hid : s.errand? id = some e)
    (hstage : e.call.stage.exchanging = true)
    (hothers : ∀ id', id' ≠ id → s'.errand? id' = s.errand? id')
    (hafter : ∀ e, s'.errand? id = some e → e.call.reception = .start) :
    s'.reception = .start := by
  refine reception_start fun id₁ e₁ hid₁ => ?_
  by_cases heq : id₁ = id
  · exact hafter e₁ (heq ▸ hid₁)
  · rw [hothers id₁ heq] at hid₁
    refine reception_of_not_exchanging fun hstage₁ => heq ?_
    -- Two calls in the middle of an exchange would both hold the lock.
    have hholder := h.holder id₁ e₁ hid₁ hstage₁
    rw [h.holder id e hid hstage, Option.some.injEq] at hholder
    exact hholder.symm

/-! ### What an action does -/

theorem Does.ordered (hdoes : s.Does a s') (hkept : Kept s)
    (h : ∀ id e, s.errand? id = some e → ∀ source, e.call.task ≠ .receive source) (id : Nat)
    (e : Errand) (he : s'.errand? id = some e) (source : Option UInt8) :
    e.call.task ≠ .receive source := by
  cases hdoes with
  | refuse => exact h id e he source
  | create hcreate => exact h id e he source
  | write hc hfree => exact h id e he source
  | @call client order limit c hc hfree =>
      rcases errand_call rfl he with ⟨_, hnew⟩ | ⟨_, hold⟩
      · rw [hnew]
        -- An order of a session is one of a client, and no hearing.
        exact order.task_ne_receive source
      · exact h id e hold source
  | @turn id' e' hid =>
      rcases errand_turn hid he with ⟨_, c', hafter, hnew⟩ | ⟨_, hold⟩
      · rw [hnew, (Call.step_goes (hkept.sound id' e' hid) id' s.bus).again hafter]
        exact h id' e' hid source
      · exact h id e hold source
  | drop hid => exact h id e (errand_drop hid he).2 source
  | outside => exact h id e he source

/-- A call of a client expects frames from the device of its client. -/
theorem Listening.onlyFrom (h : Listening s) (hid : s.errand? id = some e) :
    e.call.onlyFrom = some e.call.client.destination := by
  unfold Call.onlyFrom
  split
  · rename_i source htask
    exact absurd htask (h.ordered id e hid source)
  · rfl

theorem abandons_turn (hid : s.errand? id = some e) :
    s.abandons (.turn id) = e.call.abandons id s.bus := by
  rw [abandons, hid]
  rfl

theorem heard_turn (s : Session) (id : Nat) (e : Errand) : heard (s.turn id e).log =
    heard s.log ++ ((e.call.heard s.bus).map (e.client, ·)).toList := by
  simp only [turn]
  rw [heard_append]
  congr 1

/-- A turn keeps a session listening, once it leaves a stream that flows and a
    reception that knows what it has read. -/
theorem Listening.turn (h : Listening s) (hid : s.errand? id = some e)
    (hflow : (s.turn id e).bus.wire.arrivals.Flow)
    (hsound : (s.turn id e).reception.Sound s.bus.link.config.limits) :
    Listening (s.turn id e) := by
  have hcall := h.kept.sound id e hid
  refine ⟨kept_turn h.kept hid, (Does.turn hid).ordered h.kept h.ordered,
    Call.step_quiet hcall id h.quiet, hflow, ?_⟩
  rw [(Does.turn hid).link_config h.kept]
  exact hsound

/-- A turn of a call that waits for a frame. -/
theorem turn_reads_of_receiving (h : Listening s) (hid : s.errand? id = some e)
    (hreceiving : e.call.isReceiving = true) :
    Reads s (.turn id) (s.turn id e) ∧ Listening (s.turn id e) := by
  have hstage := exchanging_of_receiving hreceiving
  have hreception : s.reception = e.call.reception := h.kept.reception_eq hid hstage
  have hsound := h.sound
  rw [hreception] at hsound
  have hcall := h.kept.sound id e hid
  have hreceives := Call.step_receives hcall hreceiving hsound h.flow id
  have hself := errand_turn_self hid
  have habandons := abandons_turn hid
  -- The call either goes on with its reception, or none is under way any more.
  have hends : (∀ c', e.call.after (e.call.step id s.bus).1 = some c' → c'.reception = .start) →
      (s.turn id e).reception = .start := by
    intro hafter
    refine h.kept.reception_ends hid hstage (fun _ => errand_turn_of_ne hid) fun e' he' => ?_
    rw [hself, Option.map_eq_some_iff] at he'
    rcases he' with ⟨c', hc', hnew⟩
    rw [← hnew]
    exact hafter c' hc'
  have hwire : (s.turn id e).bus.wire = (e.call.step id s.bus).2.wire := rfl
  cases hreceives with
  | @reads c' taken hheard hafter hgoes hnext hgot hgives hfewer =>
      rw [hafter, Option.map_some] at hself
      have hafterwards : (s.turn id e).reception = c'.reception :=
        (kept_turn h.kept hid).reception_eq hself (exchanging_of_receiving hgoes)
      refine ⟨.passes ?_ ?_ ?_, h.turn hid hgives.flow (by rw [hafterwards]; exact hnext)⟩
      · rw [heard_turn, hheard]
        exact List.append_nil _
      · have hbytes : s.bus.wire.coming = taken ++ (s.turn id e).bus.wire.coming := hgives.bytes
        rw [habandons, Call.abandons_of_receiving hafter hgoes, hafterwards, hgot, hreception,
          hbytes]
        simp only [brings, Arrivals.bytes, List.flatMap_nil, List.append_nil, List.nil_append,
          List.append_assoc]
      · rw [habandons, Call.abandons_of_receiving hafter hgoes]
        exact fun hne => absurd rfl hne
  -- The call has heard, and the next reception starts behind what it took.
  | hears result hheard hafter hflow hanswers =>
      have hstart := hends hafter
      rw [h.onlyFrom hid, ← hreception] at hanswers
      refine ⟨.hears (h.kept.client id e hid) ?_ hanswers hstart rfl ?_, h.turn hid hflow ?_⟩
      · rw [heard_turn, hheard]
        rfl
      · rw [habandons, Call.abandons_of_heard hheard]
      · rw [hstart]
        exact Reception.sound_start _
  | leaves hheard hafter harrivals hidle =>
      -- What the call has read is lost, and the next reception starts without it.
      have hstart := hends fun c' hc' => Call.reception_of_not_receiving (hafter c' hc')
      refine ⟨.passes ?_ ?_ fun _ => hstart, h.turn hid ?_ ?_⟩
      · rw [heard_turn, hheard]
        exact List.append_nil _
      · rw [habandons, Call.abandons_of_leaves hheard hafter, hstart, hreception, Wire.coming,
          Wire.coming, hwire, harrivals]
        exact List.append_nil _
      · rw [hwire, harrivals]
        exact h.flow
      · rw [hstart]
        exact Reception.sound_start _

/-- A turn of any other call. -/
theorem turn_reads_of_elsewhere (h : Listening s) (hid : s.errand? id = some e)
    (hreceiving : e.call.isReceiving = false) :
    Reads s (.turn id) (s.turn id e) ∧ Listening (s.turn id e) := by
  have hcall := h.kept.sound id e hid
  rcases Call.step_elsewhere hcall hreceiving h.quiet id with ⟨harrivals, hafter⟩
  have hothers : ∀ id', id' ≠ id → (s.turn id e).errand? id' = s.errand? id' :=
    fun _ => errand_turn_of_ne hid
  have hafterwards : ∀ e', (s.turn id e).errand? id = some e' → e'.call.reception = .start := by
    intro e' he'
    rw [errand_turn_self hid, Option.map_eq_some_iff] at he'
    rcases he' with ⟨c', hc', hnew⟩
    rw [← hnew]
    exact hafter c' hc'
  -- In an exchange it is this call that reads, and it reads nothing yet. Else another one may.
  have hsame : (s.turn id e).reception = s.reception := by
    by_cases hstage : e.call.stage.exchanging = true
    · rw [h.kept.reception_eq hid hstage, Call.reception_of_not_receiving hreceiving]
      exact h.kept.reception_ends hid hstage hothers hafterwards
    · refine h.kept.reception_persists (kept_turn h.kept hid) id hothers ?_ hafterwards
      intro e' he'
      rw [hid, Option.some.injEq] at he'
      rw [← he']
      exact hstage
  have hwire : (s.turn id e).bus.wire = (e.call.step id s.bus).2.wire := rfl
  have habandons : s.abandons (.turn id) = [] :=
    (abandons_turn hid).trans (Call.abandons_of_not_receiving hreceiving)
  refine ⟨.passes ?_ ?_ fun hne => absurd habandons hne, h.turn hid ?_ ?_⟩
  · rw [heard_turn, Call.heard_of_not_receiving hreceiving]
    exact List.append_nil _
  · rw [habandons, hsame, Wire.coming, Wire.coming, hwire, harrivals]
    exact List.append_nil _
  · rw [hwire, harrivals]
    exact h.flow
  · rw [hsame]
    exact h.sound

/-- A call that is dropped takes along what it has read of a frame. -/
theorem drop_reads (h : Listening s) (hid : s.errand? id = some e) :
    Reads s (.drop id) (s.drop id) ∧ Listening (s.drop id) := by
  have hkept := kept_drop h.kept hid
  have hlt := lt_of_errand hid
  have hothers : ∀ id', id' ≠ id → (s.drop id).errand? id' = s.errand? id' := by
    intro id' hne
    rw [errand_set hlt rfl, if_neg hne]
  have hgone : ∀ e', (s.drop id).errand? id = some e' → e'.call.reception = .start := by
    intro e' he'
    rw [errand_set hlt rfl, if_pos rfl] at he'
    exact absurd he' nofun
  have hheard : heard (s.drop id).log = heard s.log := by
    simp only [Session.drop]
    rw [heard_append]
    exact List.append_nil _
  have habandons : s.abandons (.drop id) = e.call.reception.got := by
    rw [abandons, hid]
    rfl
  have hlistening : (s.drop id).reception.Sound s.bus.link.config.limits →
      Listening (s.drop id) := fun hsound =>
    ⟨hkept, (Does.drop hid).ordered h.kept h.ordered, h.quiet, h.flow, hsound⟩
  by_cases hstage : e.call.stage.exchanging = true
  · -- What the call had read of a frame goes with it.
    have hstart : (s.drop id).reception = .start :=
      h.kept.reception_ends hid hstage hothers hgone
    refine ⟨.passes hheard ?_ fun _ => hstart, hlistening ?_⟩
    · rw [habandons, hstart, h.kept.reception_eq hid hstage]
      exact List.append_nil _
    · rw [hstart]
      exact Reception.sound_start _
  · -- A call that is dropped before or after its exchange has read nothing.
    have hsame : (s.drop id).reception = s.reception := by
      refine h.kept.reception_persists hkept id hothers ?_ hgone
      intro e' he'
      rw [hid, Option.some.injEq] at he'
      rw [← he']
      exact hstage
    have hnone : s.abandons (.drop id) = [] := by
      rw [habandons, reception_of_not_exchanging hstage]
      rfl
    refine ⟨.passes hheard ?_ fun hne => absurd hnone hne, hlistening ?_⟩
    · rw [hnone, hsame]
      exact List.append_nil _
    · rw [hsame]
      exact h.sound

/-- Time that passes and more that arrives. -/
theorem outside_reads (h : Listening s) {now : Duration} {wire : Wire}
    (hextends : s.Extends (.outside now wire)) :
    Reads s (.outside now wire) (s.act (.outside now wire)) ∧
      Listening (s.act (.outside now wire)) := by
  rcases hextends with ⟨hbefore, hflow, hquiet⟩
  -- What comes on stands behind what was there.
  have harrivals : wire.arrivals = s.bus.wire.arrivals ++ s.brings (.outside now wire) :=
    (List.prefix_iff_eq_append.mp hbefore).symm
  have hsame : (s.act (.outside now wire)).reception = s.reception := rfl
  have hcoming : (s.act (.outside now wire)).bus.wire.coming =
      s.bus.wire.coming ++ (s.brings (.outside now wire)).bytes := by
    rw [Wire.coming, Wire.coming, ← Arrivals.bytes_append, ← harrivals]
    rfl
  have hlater : (s.act (.outside now wire)).bus.wire.arrivals.Flow := by
    have hall := Arrivals.flow_append.mpr ⟨h.flow, hflow⟩
    rw [← harrivals] at hall
    exact hall
  refine ⟨.passes rfl ?_ fun hne => absurd rfl hne, ?_⟩
  · rw [hcoming, hsame, List.append_assoc]
    rfl
  · exact ⟨(act_does s _).kept h.kept, (act_does s _).ordered h.kept h.ordered, hquiet, hlater,
      h.sound⟩

/-- An action by which nobody takes a turn reads nothing. -/
theorem still_reads (h : Listening s) (hkept : Kept s')
    (hordered : ∀ id e, s'.errand? id = some e → ∀ source, e.call.task ≠ .receive source)
    (hbus : s'.bus = s.bus) (hreception : s'.reception = s.reception)
    (hheard : heard s'.log = heard s.log) (hnone : s.brings a = []) (hlost : s.abandons a = []) :
    Reads s a s' ∧ Listening s' := by
  refine ⟨.passes hheard ?_ fun hne => absurd hlost hne, hkept, hordered, ?_, ?_, ?_⟩
  · rw [hnone, hlost, hreception, hbus]
    exact List.append_nil _
  · rw [hbus]
    exact h.quiet
  · rw [hbus]
    exact h.flow
  · rw [hreception, hbus]
    exact h.sound

/-- A call that is new is in no exchange, so what is read is read for the same call. -/
theorem reception_append (hkept : Kept s) (hkept' : Kept s') {new : Errand}
    (herrands : s'.errands = s.errands ++ [some new]) (hnew : new.call.reception = .start) :
    s'.reception = s.reception := by
  refine hkept.reception_persists hkept' s.errands.length ?_ ?_ ?_
  · intro id hne
    rw [errand_append herrands, if_neg hne]
  · intro e he
    exact absurd (lt_of_errand he) (Nat.lt_irrefl _)
  · intro e he
    rw [errand_append herrands, if_pos rfl, Option.some.injEq] at he
    rw [← he]
    exact hnew

/-- Whatever is done hears a frame or changes what is to be read in the one way
    there is, and leaves the session listening. -/
theorem act_reads (h : Listening s) (hextends : s.Extends a) :
    Reads s a (s.act a) ∧ Listening (s.act a) := by
  have hdoes := act_does s a
  have hkept := hdoes.kept h.kept
  have hordered := hdoes.ordered h.kept h.ordered
  -- Only a turn can read, and only a drop can lose what was read in part.
  cases a with
  | create destination config =>
      generalize s.act (.create destination config) = s' at hdoes hkept hordered ⊢
      cases hdoes with
      | refuse => exact still_reads h hkept hordered rfl rfl rfl rfl rfl
      | create hcreate => exact still_reads h hkept hordered rfl rfl rfl rfl rfl
  | write client bytes =>
      generalize s.act (.write client bytes) = s' at hdoes hkept hordered ⊢
      cases hdoes with
      | refuse => exact still_reads h hkept hordered rfl rfl rfl rfl rfl
      | write hc hfree =>
          refine still_reads h hkept hordered rfl rfl ?_ rfl rfl
          rw [heard_append]
          exact List.append_nil _
  | call client order limit =>
      generalize s.act (.call client order limit) = s' at hdoes hkept hordered ⊢
      cases hdoes with
      | refuse => exact still_reads h hkept hordered rfl rfl rfl rfl rfl
      | call hc hfree =>
          refine still_reads h hkept hordered rfl (reception_append h.kept hkept rfl rfl) ?_ rfl rfl
          rw [heard_append]
          exact List.append_nil _
  | turn id =>
      simp only [act]
      cases hid : s.errand? id with
      | none =>
          have hsame : s.act (.turn id) = s := by
            simp only [act, hid]
          rw [hsame] at hkept hordered
          refine still_reads h hkept hordered rfl rfl rfl rfl ?_
          rw [abandons, hid]
          rfl
      | some e =>
          by_cases hreceiving : e.call.isReceiving = true
          · exact turn_reads_of_receiving h hid hreceiving
          · exact turn_reads_of_elsewhere h hid (Bool.eq_false_iff.mpr hreceiving)
  | drop id =>
      simp only [act]
      cases hid : s.errand? id with
      | none =>
          have hsame : s.act (.drop id) = s := by
            simp only [act, hid]
          rw [hsame] at hkept hordered
          refine still_reads h hkept hordered rfl rfl rfl rfl ?_
          rw [abandons, hid]
          rfl
      | some e => exact drop_reads h hid
  | outside now wire => exact outside_reads h hextends

/-! ### Calm runs -/

/-- The invariant of every calm run: what was heard are the answers to the
    stream so far, and they have left what is read in part and what is still
    to come. -/
structure Aligned (limits : Frame.Limits) (stream : List UInt8) (s : Session) : Prop where
  listening : Listening s
  config : s.bus.link.config.limits = limits
  known : ∀ entry ∈ heard s.log, ∃ c, s.clients[entry.1]? = some c
  answered : Answered limits s.expected stream ((heard s.log).map Prod.snd)
    (s.reception.got ++ s.bus.wire.coming)

theorem listening_start (config : Link.Config) : Listening (start config) where
  kept := kept_start config
  ordered := fun _ _ he => absurd he (errand_start config)
  quiet := rfl
  flow := fun _ hmem => absurd hmem List.not_mem_nil
  sound := Reception.sound_start _

theorem aligned_start (config : Link.Config) : Aligned config.limits [] (start config) where
  listening := listening_start config
  config := rfl
  known := fun _ hmem => absurd hmem List.not_mem_nil
  answered := .nil []

/-- Whom clients expect does not change. -/
theorem Does.expected (hdoes : s.Does a s') (hkept : Kept s)
    (hknown : ∀ entry ∈ heard s.log, ∃ c, s.clients[entry.1]? = some c) :
    (heard s.log).map (fun entry => s'.clients[entry.1]?.map Client.destination) = s.expected := by
  refine List.map_congr_left fun entry hmem => ?_
  rcases hknown entry hmem with ⟨c, hc⟩
  rcases hdoes.persists hkept hc with ⟨c', hc', hdestination, _⟩
  rw [hc, hc', Option.map_some, Option.map_some, hdestination]

/-- An action by which no call gives up in the middle of a frame keeps the
    invariant. -/
theorem Aligned.act (h : Aligned limits stream s) (hextends : s.Extends a)
    (hcalm : s.abandons a = []) : Aligned limits (stream ++ (s.brings a).bytes) (s.act a) := by
  have hdoes := act_does s a
  have hkept := h.listening.kept
  rcases act_reads h.listening hextends with ⟨hreads, hlistening⟩
  have hexpected := hdoes.expected hkept h.known
  have hconfig : (s.act a).bus.link.config.limits = limits := by
    rw [hdoes.link_config hkept]
    exact h.config
  have hknown : ∀ entry ∈ heard s.log, ∃ c, (s.act a).clients[entry.1]? = some c := by
    intro entry hmem
    rcases h.known entry hmem with ⟨c, hc⟩
    rcases hdoes.persists hkept hc with ⟨c', hc', _⟩
    exact ⟨c', hc'⟩
  -- What passes leaves the answers as they are, and what hears adds one.
  cases hreads with
  | passes hheard hbytes hlost =>
      refine ⟨hlistening, hconfig, by rw [hheard]; exact hknown, ?_⟩
      rw [hcalm, List.nil_append] at hbytes
      rw [Session.expected, hheard, hexpected, ← hbytes]
      exact h.answered.append _
  | @hears who c result hc hheard hanswers hstart hnone hlost =>
      rcases hdoes.persists hkept hc with ⟨c', hc', hdestination, _⟩
      refine ⟨hlistening, hconfig, ?_, ?_⟩
      · intro entry hmem
        rw [hheard] at hmem
        rcases List.mem_append.mp hmem with hold | hnew
        · exact hknown entry hold
        · rw [List.mem_singleton.mp hnew]
          exact ⟨c', hc'⟩
      · rw [h.config] at hanswers
        have hanswered := h.answered.snoc hanswers
        rw [Session.expected, hheard, List.map_append, List.map_append, hexpected, hstart, hnone]
        simp only [List.map_cons, List.map_nil, hc', Option.map_some, hdestination]
        rw [show Arrivals.bytes [] = [] from rfl, List.append_nil]
        exact hanswered

/-- Every calm run keeps the invariant. By induction on what is done. -/
theorem run_aligned (h : Aligned limits stream s) {actions : List Action}
    (hcalm : s.Calm actions) :
    Aligned limits (stream ++ s.received actions) (s.run actions) := by
  induction actions generalizing stream s with
  | nil =>
      rw [received, List.append_nil]
      exact h
  | cons a actions ih =>
      rcases hcalm with ⟨hextends, hlost, hlater⟩
      rw [received, ← List.append_assoc]
      exact ih (h.act hextends hlost) hlater

end Session

end Multidrop
