import Multidrop.Proofs.Call.Query
import Multidrop.Proofs.Session.Alignment

/-!
# Requests and Replies

One client on a link sends requests to a device, which answers each of them
with one frame, in order and as late as it likes. Nothing in a frame says which
request it answers. The first frame that comes goes to whichever query waits,
and a query that has waited too long has left its reply to the next one.

So replies are not matched with requests but handed out. Each query that is
answered takes the first reply that no query has taken. That is the reply to
its own request if all earlier requests were answered in time, and the reply to
an earlier request if not. It is never the reply to a later one, since a device
does not answer what it has not been asked, and never one that was handed out
before.

## Main definitions

* `Frame.IsReply`: A frame that a client takes for an answer.
* `alone`: A link with one client.
* `Action.Queries`: What is done where clients do nothing but query.
* `asks`: The requests that were put on the queue, and by which calls.
* `Matches`, `Matched`: What a turn of a query can come to.
* `Asking`: The invariant of every run of queries.
* `prompted`: The replies that a device has been asked for.

## Theorems

* `Asking.act`: Every action keeps the invariant.
* `Asking.decoded`: What a device hears are the requests in their order.
* `Aligned.turn_matches`: What a turn of a query comes to.
* `Aligned.query_ends`: A query that waits ends once its time is up.
* `replies_in_order`: A query takes the first reply that nobody has taken.
* `late_reply_taken`: That need not be the reply to its own request.
-/

namespace Multidrop

/-- A frame that a client of a device takes for an answer. -/
def Frame.IsReply (limits : Frame.Limits) (source : UInt8) (f : Frame) : Prop :=
  f.Passes limits ∧ f.source = source ∧ Subframe.minPayload ≤ f.payload.length

instance (limits : Frame.Limits) (source : UInt8) (f : Frame) :
    Decidable (f.IsReply limits source) :=
  inferInstanceAs (Decidable (_ ∧ _ ∧ _))

namespace Session

/-- A link with one client. -/
def alone (config : Link.Config) (destination : UInt8) (settings : Client.Config) : Session :=
  (start config).act (.create destination settings)

/-- What is done where clients do nothing but query, for as long as it takes,
    over a wire on which nothing that is sent fails. -/
def Action.Queries : Action → Prop
  | .call _ order limit => limit = none ∧ ∃ request, order.task = .query request
  | .turn _ => True
  | .drop _ => True
  | .outside _ wire => wire.Obliging
  | _ => False

instance (a : Action) : Decidable a.Queries :=
  match a with
  | .create _ _ => isFalse not_false
  | .write _ _ => isFalse not_false
  | .call _ order limit =>
      haveI : Decidable (∃ request, order.task = .query request) :=
        match order.task with
        | .query request => isTrue ⟨request, rfl⟩
        | .flush | .receive _ | .drain | .poll | .read _ | .readLine | .write _ | .refuse _ =>
            isFalse nofun
      inferInstanceAs (Decidable (limit = none ∧ ∃ request, order.task = .query request))
  | .turn _ => isTrue trivial
  | .drop _ => isTrue trivial
  | .outside _ wire => inferInstanceAs (Decidable wire.Obliging)

/-- The request that was put on the queue at an event, and the call that has
    put it there. -/
def Event.asks : Event → Option (Nat × List UInt8)
  | .turned id note =>
    match note.task with
    | .query request =>
      if note.entered.isSome && note.ended.isNone then some (id, request) else none
    | _ => none
  | _ => none

/-- The requests that were put on the queue, and the calls that have put them
    there. -/
def asks (log : List Event) : List (Nat × List UInt8) :=
  log.filterMap Event.asks

/-- What a turn of a query can come to after some events, where a device
    answers requests with some replies. -/
inductive Matches (config : Link.Config) (destination : UInt8) (replies : List Frame)
    (before : List Event) (id : Nat) (note : Note) : Prop where
  /-- The query goes on. -/
  | goes (hheard : note.heard = none) (hended : note.ended = none)
  /-- The request does not fit a frame, and nothing is sent. -/
  | refused {request : List UInt8} {e : Frame.Error} (htask : note.task = .query request)
      (hfits : ¬ (Client.request config destination request).Fits) (hheard : note.heard = none)
      (hended : note.ended = some (.error (.frame e)))
  /-- No reply comes in time to what is the last request so far. -/
  | unanswered {request : List UInt8} (htask : note.task = .query request)
      (hlast : (asks before).getLast? = some (id, request)) (hheard : note.heard = none)
      (hended : note.ended = some (.ok (.reply {})))
  /-- The query takes the first reply that was not taken, which answers its own
      request or an earlier one. -/
  | answered {request : List UInt8} {f : Frame} (htask : note.task = .query request)
      (hlast : (asks before).getLast? = some (id, request))
      (hreply : replies[(heard before).length]? = some f)
      (hasked : (heard before).length < (asks before).length)
      (hheard : note.heard = some (.ok (some f.arrived)))
      (hended : note.ended = some (Call.parsed f.payload))

/-- Every turn in a log has come to what a turn of a query can. -/
def Matched (config : Link.Config) (destination : UInt8) (replies : List Frame)
    (log : List Event) : Prop :=
  ∀ before id note after, log = before ++ .turned id note :: after →
    Matches config destination replies before id note

/-- The invariant of every run of queries: all calls are queries, the one that
    is in the middle of an exchange has made the last request, and the traffic
    are the requests. -/
structure Asking (config : Link.Config) (destination : UInt8) (s : Session) : Prop where
  same : s.bus.link.config = config
  clients : ∀ (who : Nat) (c : Client), s.clients[who]? = some c → c.destination = destination
  calls : ∀ id e, s.errand? id = some e →
    e.call.limit = none ∧ ∃ request, e.call.task = .query request
  obliging : s.bus.wire.Obliging
  last : ∀ id e, s.errand? id = some e → e.call.stage.exchanging = true →
    ∃ request, e.call.task = .query request ∧ (asks s.log).getLast? = some (id, request)
  fits : ∀ ask ∈ asks s.log, (Client.request config destination ask.2).Fits
  traffic : s.bus.traffic =
    (asks s.log).flatMap fun ask => (Client.request config destination ask.2).bytes

variable {s s' : Session} {id : Nat} {e : Errand} {a : Action} {config : Link.Config}
  {destination : UInt8} {limits : Frame.Limits} {stream : List UInt8} {replies : List Frame}
  {actions : List Action}

theorem asks_append (log more : List Event) : asks (log ++ more) = asks log ++ asks more :=
  List.filterMap_append

/-! ### The invariant -/

theorem idle_alone (config : Link.Config) (destination : UInt8) (settings : Client.Config) :
    (alone config destination settings).bus = (start config).bus ∧
      (alone config destination settings).errands = [] ∧
      (alone config destination settings).log = [] := by
  simp only [alone, act]
  split
  · exact ⟨rfl, rfl, rfl⟩
  · exact ⟨rfl, rfl, rfl⟩

theorem destination_alone {who : Nat} {c : Client} {settings : Client.Config}
    (hc : (alone config destination settings).clients[who]? = some c) :
    c.destination = destination := by
  simp only [alone, act] at hc
  split at hc
  · exact absurd (List.mem_of_getElem? hc) List.not_mem_nil
  · rename_i c' hcreate
    rw [List.mem_singleton.mp (List.mem_of_getElem? hc), Client.create_ok hcreate]

theorem asking_alone (config : Link.Config) (destination : UInt8) (settings : Client.Config) :
    Asking config destination (alone config destination settings) := by
  rcases idle_alone config destination settings with ⟨hbus, herrands, hlog⟩
  have hnone : ∀ id e, (alone config destination settings).errand? id ≠ some e := by
    intro id e
    rw [errand?, herrands]
    rintro ⟨⟩
  refine ⟨by rw [hbus]; rfl, fun who c => destination_alone, fun id e he => absurd he (hnone id e),
    ?_, fun id e he => absurd he (hnone id e), ?_, ?_⟩
  · rw [hbus]
    exact ⟨fun rule hrule => absurd hrule List.not_mem_nil,
      fun rule hrule => absurd hrule List.not_mem_nil⟩
  · rw [hlog]
    exact fun ask hask => absurd hask List.not_mem_nil
  · rw [hbus, hlog]
    rfl

theorem aligned_alone (config : Link.Config) (destination : UInt8) (settings : Client.Config) :
    Aligned config.limits [] (alone config destination settings) := by
  have hextends : (start config).Extends (.create destination settings) := trivial
  exact (aligned_start config).act hextends rfl

theorem matched_alone (config : Link.Config) (destination : UInt8) (settings : Client.Config)
    (replies : List Frame) :
    Matched config destination replies (alone config destination settings).log := by
  rw [(idle_alone config destination settings).2.2]
  intro before id note after hlog
  exact absurd hlog.symm (List.append_ne_nil_of_right_ne_nil before (List.cons_ne_nil _ _))

/-- What a turn of a query asks. -/
theorem asks_turn (s : Session) (id : Nat) (e : Errand) {request : List UInt8}
    (htask : e.call.task = .query request) : asks (s.turn id e).log = asks s.log ++
      if e.call.enters id s.bus = true ∧ Call.ended (e.call.step id s.bus).1 = none then
        [(id, request)] else [] := by
  simp only [turn]
  rw [asks_append]
  congr 1
  simp only [asks, List.filterMap_cons, Event.asks, htask, List.filterMap_nil]
  by_cases henters : e.call.enters id s.bus = true
  · by_cases hended : Call.ended (e.call.step id s.bus).1 = none
    · simp only [henters, hended, if_true, Option.isSome_some, Option.isNone_none, Bool.and_self,
        and_self]
    · have hsome : (Call.ended (e.call.step id s.bus).1).isNone = false := by
        rw [Option.isNone_eq_false_iff, Option.isSome_iff_ne_none]
        exact hended
      simp only [hended, hsome, and_false, if_false, Bool.and_false, Bool.false_eq_true]
  · simp only [henters, if_false, Option.isSome_none, Bool.false_and, Bool.false_eq_true,
      false_and]

/-- A turn that asks nothing leaves the requests as they are. -/
theorem asks_turn_of_not (s : Session) (id : Nat) (e : Errand) {request : List UInt8}
    (htask : e.call.task = .query request)
    (h : e.call.enters id s.bus = true → Call.ended (e.call.step id s.bus).1 ≠ none) :
    asks (s.turn id e).log = asks s.log := by
  rw [asks_turn s id e htask, if_neg fun hc => h hc.1 hc.2, List.append_nil]

/-- A turn of a query in a run of queries. -/
theorem Asking.query (h : Asking config destination s) (hkept : Kept s)
    (hid : s.errand? id = some e) {request : List UInt8} (htask : e.call.task = .query request) :
    let asked := Client.request config destination request
    let move := e.call.step id s.bus
    (e.call.enters id s.bus = true ∧ Call.ended move.1 = none ∧ asked.Fits ∧
      move.2.traffic = s.bus.traffic ++ asked.bytes) ∨
    ((e.call.enters id s.bus = true → Call.ended move.1 ≠ none) ∧
      move.2.traffic = s.bus.traffic ∧
      ∀ c', e.call.after move.1 = some c' → c'.stage.exchanging = true →
        e.call.stage.exchanging = true) := by
  intro asked move
  have hquery := (Call.step_goes (hkept.sound id e hid) id s.bus).query htask
  rw [h.same, h.clients _ _ (hkept.client id e hid)] at hquery
  exact hquery

/-- After a turn, too, a call in the middle of an exchange has made the last request. -/
theorem Asking.turn_last (h : Asking config destination s) (hkept : Kept s)
    (hid : s.errand? id = some e) {id' : Nat} {e' : Errand}
    (he' : (s.turn id e).errand? id' = some e') (hstage : e'.call.stage.exchanging = true) :
    ∃ request, e'.call.task = .query request ∧
      (asks (s.turn id e).log).getLast? = some (id', request) := by
  rcases h.calls id e hid with ⟨_, request, htask⟩
  rcases errand_turn hid he' with ⟨heq, c', hafter, hnew⟩ | ⟨hne, hold⟩
  · rw [hnew] at hstage
    have htask' : e'.call.task = .query request := by
      rw [hnew, (Call.step_goes (hkept.sound id e hid) id s.bus).again hafter]
      exact htask
    refine ⟨request, htask', ?_⟩
    rcases h.query hkept hid htask with ⟨henters, hended, _⟩ | ⟨hnothing, _, hexchanging⟩
    · -- A query that has just got the lock makes its request now.
      rw [asks_turn s id e htask, if_pos ⟨henters, hended⟩, heq, List.getLast?_concat]
    · -- A call that goes on in its exchange has made the last request before.
      rcases h.last id e hid (hexchanging c' hafter hstage) with ⟨request', hsame, hlast⟩
      rw [asks_turn_of_not s id e htask hnothing, hlast, heq]
      rw [htask, Task.query.injEq] at hsame
      rw [hsame]
  · -- Another call in the middle of an exchange holds the lock, so nothing is asked now.
    rcases h.last id' e' hold hstage with ⟨request', hsame, hlast⟩
    refine ⟨request', hsame, ?_⟩
    rw [asks_turn_of_not s id e htask fun henters => ?_]
    · exact hlast
    · have hholder := hkept.holder id' e' hold hstage
      rw [(of_decide_eq_true henters).2, Option.some.injEq] at hholder
      exact absurd hholder.symm hne

/-- A turn keeps the invariant. -/
theorem Asking.turn (h : Asking config destination s) (hkept : Kept s)
    (hid : s.errand? id = some e) : Asking config destination (s.turn id e) := by
  have hgoes := Call.step_goes (hkept.sound id e hid) id s.bus
  have hcall := hkept.client id e hid
  have hlt : e.client < s.clients.length := (List.getElem?_eq_some_iff.mp hcall).1
  rcases h.calls id e hid with ⟨hlimit, request, htask⟩
  have hquery := h.query hkept hid htask
  have htraffic : (s.turn id e).bus.traffic = (e.call.step id s.bus).2.traffic := rfl
  refine ⟨((Does.turn hid).link_config hkept).trans h.same, ?_, ?_,
    Call.step_obliging (hkept.sound id e hid) id h.obliging,
    fun id' e' he' hstage => h.turn_last hkept hid he' hstage, ?_, ?_⟩
  · -- A turn changes no destination, no task and no limit.
    intro who c hc
    simp only [Session.turn] at hc
    by_cases hwho : e.client = who
    · rw [← hwho, List.getElem?_set_self hlt, Option.some.injEq] at hc
      rw [← hc, hgoes.client.1]
      exact h.clients _ _ hcall
    · rw [List.getElem?_set_ne hwho] at hc
      exact h.clients who c hc
  · intro id' e' he'
    rcases errand_turn hid he' with ⟨_, c', hafter, hnew⟩ | ⟨_, hold⟩
    · rw [hnew, hgoes.again hafter]
      exact ⟨hlimit, request, htask⟩
    · exact h.calls id' e' hold
  · intro ask hask
    rcases hquery with ⟨henters, hended, hfits, _⟩ | ⟨hnothing, _⟩
    · rw [asks_turn s id e htask, if_pos ⟨henters, hended⟩] at hask
      rcases List.mem_append.mp hask with hold | hnew
      · exact h.fits ask hold
      · rw [List.mem_singleton.mp hnew]
        exact hfits
    · rw [asks_turn_of_not s id e htask hnothing] at hask
      exact h.fits ask hask
  · -- A request is added to the traffic just when it is noted.
    rcases hquery with ⟨henters, hended, _, hmore⟩ | ⟨hnothing, hsame, _⟩
    · rw [htraffic, hmore, asks_turn s id e htask, if_pos ⟨henters, hended⟩, List.flatMap_append,
        List.flatMap_singleton, h.traffic]
    · rw [htraffic, hsame, asks_turn_of_not s id e htask hnothing, h.traffic]

/-- What asks for nothing and leaves the link, the wire and the clients alone keeps
    the invariant, when each call was there before or is a query that begins. -/
theorem Asking.still (h : Asking config destination s) (hlink : s'.bus.link = s.bus.link)
    (hwire : s'.bus.wire = s.bus.wire) (hclients : s'.clients = s.clients)
    (hasks : asks s'.log = asks s.log)
    (hcalls : ∀ id e, s'.errand? id = some e → s.errand? id = some e ∨
      (e.call.stage = .fresh ∧ e.call.limit = none ∧ ∃ request, e.call.task = .query request)) :
    Asking config destination s' := by
  refine ⟨?_, ?_, ?_, ?_, ?_, ?_, ?_⟩
  · rw [hlink]
    exact h.same
  · rw [hclients]
    exact h.clients
  · intro id e he
    rcases hcalls id e he with hold | ⟨_, hlimit, htask⟩
    · exact h.calls id e hold
    · exact ⟨hlimit, htask⟩
  · rw [hwire]
    exact h.obliging
  · intro id e he hstage
    rw [hasks]
    rcases hcalls id e he with hold | ⟨hfresh, _⟩
    · exact h.last id e hold hstage
    · rw [hfresh] at hstage
      exact absurd hstage Bool.false_ne_true
  · rw [hasks]
    exact h.fits
  · rw [Bus.traffic, hlink, hwire, hasks]
    exact h.traffic

/-- Every action keeps the invariant. -/
theorem Asking.act (h : Asking config destination s) (hkept : Kept s) (hqueries : a.Queries) :
    Asking config destination (s.act a) := by
  have hdoes := act_does s a
  cases a with
  | create destination config => exact absurd hqueries not_false
  | write client bytes => exact absurd hqueries not_false
  | call client order limit =>
      generalize s.act (.call client order limit) = s' at hdoes ⊢
      cases hdoes with
      | refuse => exact h
      | call hc hfree =>
          refine h.still rfl rfl rfl ?_ fun id e he => ?_
          · rw [asks_append]
            exact List.append_nil _
          · rcases errand_call rfl he with ⟨_, hnew⟩ | ⟨_, hold⟩
            · rw [hnew]
              exact Or.inr ⟨rfl, hqueries⟩
            · exact Or.inl hold
  | turn id =>
      simp only [Session.act]
      cases hid : s.errand? id with
      | none => exact h
      | some e => exact h.turn hkept hid
  | drop id =>
      simp only [Session.act]
      cases hid : s.errand? id with
      | none => exact h
      | some e =>
          refine h.still rfl rfl rfl ?_ fun id' e' he' => Or.inl (errand_drop hid he').2
          simp only [Session.drop]
          rw [asks_append]
          exact List.append_nil _
  | outside now wire =>
      exact ⟨h.same, h.clients, h.calls, ⟨hqueries.writes, hqueries.flushes⟩, h.last, h.fits,
        h.traffic⟩

/-- What a device hears are the requests in their order, as far as they were
    sent. -/
theorem Asking.decoded (h : Asking config destination s) :
    Frame.decoded s.bus.wire.sent <+:
      (asks s.log).map fun ask => (Client.request config destination ask.2).arrived := by
  let frames := (asks s.log).map fun ask => Client.request config destination ask.2
  have hfits : ∀ f ∈ frames, f.Fits := by
    intro f hf
    rcases List.mem_map.mp hf with ⟨ask, hask, hframe⟩
    rw [← hframe]
    exact h.fits ask hask
  -- The traffic are the requests, and what was sent is its beginning.
  have hsent : s.bus.wire.sent <+: frames.flatMap Frame.bytes := by
    have htraffic : s.bus.traffic = frames.flatMap Frame.bytes := by
      rw [h.traffic, List.flatMap_map]
    rw [← htraffic, Bus.traffic, List.append_assoc]
    exact List.prefix_append _ _
  rcases Frame.decoded_of_prefix hfits hsent with ⟨whole, later, hframes, hdecoded, _⟩
  have hall : (asks s.log).map (fun ask => (Client.request config destination ask.2).arrived) =
      frames.map Frame.arrived := by
    rw [List.map_map]
    rfl
  rw [hdecoded, hall, hframes, List.map_append]
  exact List.prefix_append _ _

/-! ### What a turn comes to -/

/-- The replies that a device has been asked for by now. -/
def prompted (replies : List Frame) (s : Session) : List Frame :=
  replies.take (Frame.decoded s.bus.wire.sent).length

/-- What is heard is the first reply that was not heard, and a reply to what
    has been asked. -/
theorem Aligned.hears_reply (h : Aligned limits stream s) (hasking : Asking config destination s)
    (hreplies : ∀ f ∈ replies, f.IsReply limits destination)
    (hstream : stream <+: (prompted replies s).flatMap Frame.bytes) {n who : Nat}
    {result : Reception.Result} (hheard : (heard s.log)[n]? = some (who, result)) :
    ∃ f, replies[n]? = some f ∧ n < (asks s.log).length ∧ result = .ok (some f.arrived) := by
  let forms := (prompted replies s).map Frame.form
  -- Each reply is a frame that passes, so its form is one with the right checksum.
  have hforms : ∀ p ∈ forms, p.Accepted limits ∧ p.crc = p.computed := by
    intro p hp
    rcases List.mem_map.mp hp with ⟨f, hf, hform⟩
    rw [← hform]
    exact ⟨Frame.accepted_form (hreplies f (List.mem_of_mem_take hf)).1,
      (Frame.crc_form f).trans (Frame.computed_form f).symm⟩
  have hbytes : forms.flatMap Frame.Form.bytes = (prompted replies s).flatMap Frame.bytes := by
    rw [List.flatMap_map]
    congr 1
  rw [← hbytes] at hstream
  rcases h.heard_forms hforms hstream with ⟨_, hanswers, _⟩
  rcases hanswers n who result hheard with ⟨c, p, hc, hp, hresult⟩
  rw [List.getElem?_map, Option.map_eq_some_iff] at hp
  rcases hp with ⟨f, hf, hform⟩
  have hlt := (List.getElem?_eq_some_iff.mp hf).1
  rw [prompted, List.length_take] at hlt
  have hasked := hasking.decoded.length_le
  rw [List.length_map] at hasked
  rw [prompted, List.getElem?_take_of_lt (by omega)] at hf
  rcases hreplies f (List.mem_of_getElem? hf) with ⟨hpasses, hsource, hpayload⟩
  refine ⟨f, hf, by omega, ?_⟩
  -- The frame is from whom it was expected, and long enough.
  rw [hresult, ← hform, Frame.frame_form hpasses.1, Reception.deliver, if_neg]
  rw [not_or]
  refine ⟨?_, Nat.not_lt.mpr hpayload⟩
  rw [Option.any_some, decide_eq_true_eq, hasking.clients who c hc]
  exact not_not_intro hsource.symm

/-- A turn of a call that waits for a frame and does not give up. -/
theorem Aligned.turn_receiving (h : Aligned limits stream s) (hid : s.errand? id = some e)
    (hreceiving : e.call.isReceiving = true) (hcalm : e.call.abandons id s.bus = []) :
    Aligned limits stream (s.turn id e) ∧
      ∀ replies, prompted replies (s.turn id e) = prompted replies s := by
  have hextends : s.Extends (.turn id) := trivial
  have hafter := h.act hextends ((abandons_turn hid).trans hcalm)
  rw [act_turn hid] at hafter
  refine ⟨List.append_nil stream ▸ hafter, fun replies => ?_⟩
  have hsound := h.listening.kept.sound id e hid
  have hintact : s.bus.wire.Intact (s.turn id e).bus.wire :=
    (Call.step_receiving hsound hreceiving id s.bus).1
  rw [prompted, prompted, hintact]

/-- What a turn of a query comes to. -/
theorem Aligned.turn_matches (h : Aligned limits stream s)
    (hasking : Asking config destination s)
    (hreplies : ∀ f ∈ replies, f.IsReply limits destination)
    (hstream : stream <+: (prompted replies s).flatMap Frame.bytes)
    (hid : s.errand? id = some e) :
    Matches config destination replies s.log id (s.noted id e) := by
  have hkept := h.listening.kept
  rcases hasking.calls id e hid with ⟨hlimit, request, hquery⟩
  have hdestination : e.call.client.destination = destination :=
    hasking.clients _ _ (hkept.client id e hid)
  have hlast : e.call.isReceiving = true → (asks s.log).getLast? = some (id, request) := by
    intro hreceiving
    rcases hasking.last id e hid (exchanging_of_receiving hreceiving) with
      ⟨request', hsame, hlast⟩
    rw [hquery, Task.query.injEq] at hsame
    rw [hlast, hsame]
  -- What is heard settles which of the two ends of an exchange this can be.
  cases hheard : e.call.heard s.bus with
  | none =>
      cases hended : Call.ended (e.call.step id s.bus).1 with
      | none => exact .goes hheard hended
      | some result =>
          rcases Call.query_ended hquery hlimit hasking.obliging hheard hended with
            ⟨_, hfits, e', hrefused⟩ | ⟨hreceiving, hempty⟩
          · rw [hasking.same, hdestination] at hfits
            rw [hrefused] at hended
            exact .refused hquery hfits hheard hended
          · rw [hempty] at hended
            exact .unanswered hquery (hlast hreceiving) hheard hended
  | some result =>
      -- Only a call that receives hears anything.
      have hreceiving : e.call.isReceiving = true := by
        by_cases hreceiving : e.call.isReceiving = true
        · exact hreceiving
        · rw [Call.heard_of_not_receiving (Bool.eq_false_iff.mpr hreceiving)] at hheard
          exact absurd hheard nofun
      have hentry : (heard (s.turn id e).log)[(heard s.log).length]? = some (e.client, result) := by
        rw [heard_turn, hheard]
        exact List.getElem?_concat_length
      rcases h.turn_receiving hid hreceiving (Call.abandons_of_heard hheard) with
        ⟨hafter, hprompted⟩
      rw [← hprompted replies] at hstream
      rcases hafter.hears_reply (hasking.turn hkept hid) hreplies hstream hentry with
        ⟨f, hreply, hasked, hframe⟩
      rw [hframe] at hheard
      -- The turn at which a query hears its reply is not the one at which it has got the lock.
      have hasks : asks (s.turn id e).log = asks s.log := by
        refine asks_turn_of_not s id e hquery fun henters => ?_
        have hqueued := (of_decide_eq_true henters).1
        simp only [Call.isReceiving, hqueued, Bool.false_eq_true] at hreceiving
      rw [hasks] at hasked
      exact .answered hquery (hlast hreceiving) hreply hasked hheard
        (Call.query_hears hquery hheard)

/-- A turn at which a query does not just go on is its last. -/
theorem Matches.ended {before : List Event} {note : Note}
    (h : Matches config destination replies before id note)
    (hover : ¬ (note.heard = none ∧ note.ended = none)) : note.ended.isSome = true := by
  cases h with
  | goes hheard hended => exact absurd ⟨hheard, hended⟩ hover
  | refused htask hfits hheard hended => exact hended ▸ rfl
  | unanswered htask hlast hheard hended => exact hended ▸ rfl
  | answered htask hlast hreply hasked hheard hended => exact hended ▸ rfl

/-- A query that waits for its reply ends once its time is up and it takes its
    turns. By induction on the number of reads that are left. -/
theorem Aligned.query_ends (h : Aligned limits stream s) (hasking : Asking config destination s)
    (hreplies : ∀ f ∈ replies, f.IsReply limits destination)
    (hstream : stream <+: (prompted replies s).flatMap Frame.bytes)
    (hid : s.errand? id = some e) {deadline : Duration} {early : Bool} {taken : Nat}
    {r : Reception} (hstage : e.call.stage = .receiving (some deadline) early taken r)
    (hpassed : deadline ≤ s.bus.now) :
    ∃ k before note, (s.run (List.replicate k (.turn id))).log = before ++ [.turned id note] ∧
      note.ended.isSome = true ∧ Matches config destination replies before id note := by
  induction hreads : s.bus.wire.arrivals.reads using Nat.strongRecOn generalizing s e r with
  | ind reads ih =>
    have hkept := h.listening.kept
    have hmatches := h.turn_matches hasking hreplies hstream hid
    by_cases hover : e.call.heard s.bus = none ∧ Call.ended (e.call.step id s.bus).1 = none
    · -- The query has read on, so that fewer reads are left.
      have hreceiving : e.call.isReceiving = true := Call.isReceiving_iff.mpr ⟨_, _, _, _, hstage⟩
      rcases hasking.calls id e hid with ⟨_, request, hquery⟩
      have hreception := h.listening.sound
      rw [hkept.reception_eq hid (exchanging_of_receiving hreceiving)] at hreception
      simp only [Call.reception, hstage] at hreception
      rcases Call.query_reads_on hquery hstage hpassed hreception h.listening.flow hover.1 hover.2
        with ⟨r', hafter, hfewer⟩
      rcases h.turn_receiving hid hreceiving (Call.abandons_of_receiving hafter rfl) with
        ⟨haligned, hprompted⟩
      have hself : (s.turn id e).errand? id = some { e with
          call := { e.call with stage := .receiving (some deadline) early taken r' } } := by
        rw [errand_turn_self hid, hafter]
        rfl
      have hnow : (s.turn id e).bus.now = s.bus.now :=
        (Call.step_receiving (hkept.sound id e hid) hreceiving id s.bus).2
      rcases ih _ (hreads ▸ hfewer) haligned (hasking.turn hkept hid)
        (by rw [hprompted replies]; exact hstream) hself rfl (by rw [hnow]; exact hpassed) rfl with
        ⟨k, before, note, hlog, hended, hlater⟩
      refine ⟨k + 1, before, note, ?_, hended, hlater⟩
      rw [← hlog, ← act_turn hid]
      rfl
    · -- This turn is the last one, whether or not the query gives up in a frame.
      refine ⟨1, s.log, s.noted id e, ?_, hmatches.ended hover, hmatches⟩
      rw [← turn_log, ← act_turn hid]
      rfl

/-! ### Runs of queries -/

/-- Where all turns so far have come to what they can, so have those after one
    more action. -/
theorem Aligned.act_matched (h : Aligned limits stream s)
    (hasking : Asking config destination s)
    (hreplies : ∀ f ∈ replies, f.IsReply limits destination)
    (hstream : stream <+: (prompted replies s).flatMap Frame.bytes)
    (hmatched : Matched config destination replies s.log) (a : Action) :
    Matched config destination replies (s.act a).log := by
  rcases (act_does s a).log with hsame | ⟨event, hmore, hturned⟩
  · rw [hsame]
    exact hmatched
  · rw [hmore]
    intro before id note after hlog
    rcases List.eq_nil_or_concat after with hnil | ⟨rest, last, hconcat⟩
    · -- The turn is the one that was added.
      rw [hnil] at hlog
      rcases List.append_inj' hlog rfl with ⟨hbefore, hevent⟩
      rcases hturned id note (List.singleton_inj.mp hevent) with ⟨e, hid, hnote⟩
      rw [← hbefore, hnote]
      exact h.turn_matches hasking hreplies hstream hid
    · -- The turn was there before.
      refine hmatched before id note rest ?_
      rw [hconcat, List.concat_eq_append, ← List.cons_append, ← List.append_assoc] at hlog
      exact (List.append_inj' hlog rfl).1

/-- What holds of every calm run of queries. By induction on what is done. -/
theorem run_matched (h : Aligned limits stream s) (hasking : Asking config destination s)
    (hreplies : ∀ f ∈ replies, f.IsReply limits destination)
    (hmatched : Matched config destination replies s.log) (hqueries : ∀ a ∈ actions, a.Queries)
    (hcalm : s.Calm actions)
    (hprompted : ∀ before, before <+: actions → stream ++ s.received before <+:
      (prompted replies (s.run before)).flatMap Frame.bytes) :
    Asking config destination (s.run actions) ∧
      Matched config destination replies (s.run actions).log := by
  induction actions generalizing stream s with
  | nil => exact ⟨hasking, hmatched⟩
  | cons a actions ih =>
      rcases hcalm with ⟨hextends, hlost, hlater⟩
      -- Up to here only replies to requests that were made have come in.
      have hstream := hprompted [] List.nil_prefix
      rw [received, List.append_nil] at hstream
      refine ih (h.act hextends hlost)
        (hasking.act h.listening.kept (hqueries a List.mem_cons_self))
        (h.act_matched hasking hreplies hstream hmatched a)
        (fun b hb => hqueries b (List.mem_cons_of_mem a hb)) hlater fun before hbefore => ?_
      rw [List.append_assoc]
      exact hprompted (a :: before) (List.cons_prefix_cons.mpr ⟨rfl, hbefore⟩)

/-- A client alone on its link that does nothing but query, one query after
    another or several at once, and a device that answers each request it hears
    with one frame, in order and whenever it likes, but not before it has heard
    the request: as long as no query gives up or is dropped in the middle of a
    frame, each query ends in one of three ways. Its request does not fit a
    frame, and it ends with an error and sends nothing. Or no reply comes in
    time, and it ends with an empty one. Or it takes the first reply that no
    query has taken yet, and ends with what that says. So no reply is taken
    twice, none is skipped, and none is taken that answers a later request. A
    query that waits ends once its time is up and it takes its turns, even if
    it gives up in the middle of a frame. -/
theorem replies_in_order (config : Link.Config) (destination : UInt8) (settings : Client.Config)
    (replies : List Frame) (actions : List Action)
    (hreplies : ∀ f ∈ replies, f.IsReply config.limits destination)
    (hqueries : ∀ a ∈ actions, a.Queries)
    (hcalm : (alone config destination settings).Calm actions)
    (hprompted : ∀ before, before <+: actions →
      (alone config destination settings).received before <+:
        (prompted replies ((alone config destination settings).run before)).flatMap Frame.bytes) :
    let s := (alone config destination settings).run actions
    Frame.decoded s.bus.wire.sent <+:
      (asks s.log).map (fun ask => (Client.request config destination ask.2).arrived) ∧
    Matched config destination replies s.log ∧
    (∀ id e deadline early taken r, s.errand? id = some e →
      e.call.stage = .receiving (some deadline) early taken r → deadline ≤ s.bus.now →
        ∃ k before note,
          (s.run (List.replicate k (.turn id))).log = before ++ [.turned id note] ∧
            note.ended.isSome = true ∧ Matches config destination replies before id note) := by
  intro s
  have hbegins := aligned_alone config destination settings
  have haligned : Aligned config.limits ([] ++ _) s := run_aligned hbegins hcalm
  rcases run_matched hbegins (asking_alone config destination settings) hreplies
    (matched_alone config destination settings replies) hqueries hcalm hprompted with
    ⟨hasking, hmatched⟩
  refine ⟨hasking.decoded, hmatched, ?_⟩
  intro id e deadline early taken r hid hstage hpassed
  exact haligned.query_ends hasking hreplies (hprompted actions List.prefix_rfl) hid hstage hpassed

/-- The reply to a request for one register. -/
def lateReply : Frame where
  source := 5
  destination := 0
  payload := [0x20, 0x10, 1]

/-- The reply to a request for another one. -/
def nextReply : Frame where
  source := 5
  destination := 0
  payload := [0x20, 0x11, 2]

/-- A query waits in vain, and the reply to it comes while another one waits
    for its own. -/
def lateRun : List Action :=
  let late : Arrivals := [(.ofMillis 60, .data 0x54 [0xab, 5, 0, 3, 0x20, 0x10, 1, 0x5e, 0x36])]
  let next : Arrivals := [(.ofMillis 80, .data 0x54 [0xab, 5, 0, 3, 0x20, 0x11, 2, 0x0c, 0x35])]
  [.call 0 (.query [.readSingle 0x10 .int8]) none] ++ List.replicate 6 (.turn 0) ++
    [.outside (.ofMillis 50) { arrivals := late }, .turn 0,
      .call 0 (.query [.readSingle 0x11 .int8]) none] ++ List.replicate 6 (.turn 1) ++
    [.outside (.ofMillis 60) { arrivals := late ++ next }] ++ List.replicate 3 (.turn 1)

/-- This is a calm run of queries, and the device answers what it has heard. -/
theorem lateRun_calm : (∀ a ∈ lateRun, a.Queries) ∧ (alone {} 5 {}).Calm lateRun ∧
    ∀ before, before <+: lateRun → (alone {} 5 {}).received before <+:
      (prompted [lateReply, nextReply] ((alone {} 5 {}).run before)).flatMap Frame.bytes := by
  have hqueries : ∀ a ∈ lateRun, a.Queries := by decide +kernel
  have hcalm : (alone {} 5 {}).Calm lateRun := by decide +kernel
  have hprompted : ∀ n < lateRun.length + 1, (alone {} 5 {}).received (lateRun.take n) <+:
      (prompted [lateReply, nextReply] ((alone {} 5 {}).run (lateRun.take n))).flatMap
        Frame.bytes := by decide +kernel
  refine ⟨hqueries, hcalm, fun before hbefore => ?_⟩
  rw [List.prefix_iff_eq_take.mp hbefore]
  exact hprompted _ (Nat.lt_succ_of_le hbefore.length_le)

/-- The second query takes the first reply. -/
theorem replies_in_order_late_reply :
    let s := (alone {} 5 {}).run lateRun
    let note : Note := {
      client := 0
      task := .query [0x18, 0x11]
      entered := none
      heard := some (.ok (some lateReply.arrived))
      ended := some (Call.parsed lateReply.payload) }
    s.log = s.log.dropLast ++ [.turned 1 note] ∧
      Matches {} 5 [lateReply, nextReply] s.log.dropLast 1 note := by
  intro s note
  have hlog : s.log = s.log.dropLast ++ [.turned 1 note] := by decide +kernel
  have hreplies : ∀ f ∈ [lateReply, nextReply], f.IsReply {} 5 := by decide +kernel
  rcases lateRun_calm with ⟨hqueries, hcalm, hprompted⟩
  rcases replies_in_order {} 5 {} [lateReply, nextReply] lateRun hreplies hqueries hcalm hprompted
    with ⟨_, hmatched, _⟩
  exact ⟨hlog, hmatched _ _ _ _ hlog⟩

/-- A query ends with what the device has answered to another one, which has
    given up before, and not with what it has answered to itself or with an
    empty reply. -/
theorem late_reply_taken :
    let s := (alone {} 5 {}).run lateRun
    (∀ a ∈ lateRun, a.Queries) ∧ (alone {} 5 {}).Calm lateRun ∧
      (∀ before, before <+: lateRun → (alone {} 5 {}).received before <+:
        (prompted [lateReply, nextReply] ((alone {} 5 {}).run before)).flatMap Frame.bytes) ∧
      asks s.log = [(0, [0x18, 0x10]), (1, [0x18, 0x11])] ∧
      .turned 0 {
        client := 0
        task := .query [0x18, 0x10]
        entered := none
        heard := none
        ended := some (.ok (.reply {})) } ∈ s.log ∧
      .turned 1 {
        client := 0
        task := .query [0x18, 0x11]
        entered := none
        heard := some (.ok (some lateReply.arrived))
        ended := some (Call.parsed lateReply.payload) } ∈ s.log ∧
      Call.parsed lateReply.payload ≠ Call.parsed nextReply.payload ∧
      Call.parsed lateReply.payload ≠ .ok (.reply {}) := by
  rcases lateRun_calm with ⟨hqueries, hcalm, hprompted⟩
  exact ⟨hqueries, hcalm, hprompted, by decide +kernel⟩

end Session

end Multidrop
