import Multidrop.Proofs.Call.Stream
import Multidrop.Proofs.Frame.Decode
import Multidrop.Proofs.History
import Multidrop.Proofs.Session.Exchanges

/-!
# The Stream to a Device

What a client writes reaches its device as it was written. It is first
buffered, then taken from the buffer in chunks as the frames of a drain, and
then sent as part of whatever the link carries; and a reader at the far end
who takes frames off the wire and joins the data for one channel of one device
has a part of it, from its start, at any moment.

Nothing is lost or doubled where a drain fails or is dropped. Its frames are
queued at one turn, at which the same bytes leave the buffer, and what is
queued then is sent by whoever comes next. So what is on its way and what is
still buffered are always all that was written, and after a drain that
succeeds the device has all of it.

## Main definitions

* `Event.written`: What a client buffers at an event.
* `Event.drained`: What an exchange takes from there.
* `Accounted`: The invariant of every run.

## Theorems

* `Does.accounted`, `run_accounted`: Every action and every run keeps it.
* `stream_outgoing`: What a device hears of what was written for it.
-/

namespace Multidrop

theorem Task.drained_of_config {link link' : Link} (h : link'.config = link.config)
    (client : Client) (task : Task) : task.drained link' client = task.drained link client := by
  by_cases hdrain : task = .drain
  · rw [hdrain, drained, drained, frames_of_config h]
  · rw [drained_of_not_drain hdrain, drained_of_not_drain hdrain]

theorem Order.built_task (order : Order) : order.task.Built := by
  cases order with
  | drain => trivial
  | poll => trivial
  | read size => trivial
  | readLine => trivial
  | query operations =>
      exact Task.built_build operations fun request hbuilt => ⟨request, hbuilt, rfl⟩
  | write operations =>
      exact Task.built_build operations fun request hbuilt => ⟨request, hbuilt, rfl⟩
  | request operations =>
      exact Task.built_build operations fun request hbuilt => Task.built_ofRequest hbuilt

namespace Session

/-- The stream bytes a client buffers at an event. -/
def Event.written (client : Nat) : Event → List UInt8
  | .wrote who bytes => if who = client then bytes else []
  | _ => []

/-- The stream bytes an exchange of a client takes from its buffer at an
    event. -/
def Event.drained (config : Link.Config) (client : Nat) : Event → List UInt8
  | .turned _ note =>
    match note.entered with
    | none => []
    | some c => if note.client = client then note.task.drained { config } c else []
  | _ => []

/-- The stream bytes a client has buffered. -/
def buffered (client : Nat) (s : Session) : List UInt8 :=
  (s.clients[client]?.map Client.writeBuffer).getD []

/-- The invariant of every run: what a client has written was taken from its
    buffer or is still there, an exchange is that of a client that is still
    the same, and a call that has its client to itself was made when all was
    written that is. -/
structure Accounted (config : Link.Config) (s : Session) : Prop where
  buffer : ∀ client, s.log.flatMap (Event.drained config client) ++ s.buffered client =
    s.log.flatMap (Event.written client)
  entered : ∀ id note c, .turned id note ∈ s.log → note.entered = some c →
    note.task.Built ∧ ∃ c', s.clients[note.client]? = some c' ∧
      c'.destination = c.destination ∧ c'.config = c.config
  built : ∀ id e, s.errand? id = some e → e.call.task.Built
  called : ∀ id e, s.errand? id = some e → e.call.task.isShared = false →
    ∃ before, History.Last (.called id e.client e.call.task) s.log before ∧
      before.flatMap (Event.written e.client) = s.log.flatMap (Event.written e.client)

variable {s s' : Session} {config : Link.Config} {id : Nat} {e : Errand} {a : Action}

theorem accounted_start (config : Link.Config) : Accounted config (start config) where
  buffer := by
    intro client
    rfl
  entered := by
    intro id note c hmem
    exact absurd hmem List.not_mem_nil
  built := by
    intro id e he
    exact absurd he (errand_start config)
  called := by
    intro id e he
    exact absurd he (errand_start config)

/-! ### What is buffered -/

/-- A client that is new has nothing buffered. -/
theorem buffered_create {c : Client} (hempty : c.writeBuffer = []) (client : Nat) :
    buffered client { s with clients := s.clients ++ [c] } = s.buffered client := by
  unfold buffered
  by_cases hlt : client < s.clients.length
  · rw [List.getElem?_append_left hlt]
  · have hnone : s.clients[client]? = none := List.getElem?_eq_none (by omega)
    rw [hnone, List.getElem?_append_right (by omega)]
    cases client - s.clients.length with
    | zero => exact hempty
    | succ n => rfl

/-- What is written goes behind what is buffered. -/
theorem buffer_write (h : Accounted config s) {who : Nat} {c : Client}
    (hc : s.clients[who]? = some c) (bytes : List UInt8) (client : Nat) :
    (s.log ++ [Event.wrote who bytes]).flatMap (Event.drained config client) ++
        buffered client { s with
          clients := s.clients.set who (c.write bytes)
          log := s.log ++ [.wrote who bytes] } =
      (s.log ++ [Event.wrote who bytes]).flatMap (Event.written client) := by
  have hlt : who < s.clients.length := (List.getElem?_eq_some_iff.mp hc).1
  have hbuffer := h.buffer client
  simp only [List.flatMap_append, List.flatMap_singleton, Event.drained, Event.written,
    List.append_nil, buffered] at hbuffer ⊢
  by_cases hwho : who = client
  · rw [hwho] at hc hlt
    rw [hc] at hbuffer
    rw [hwho, if_pos rfl, List.getElem?_set_self hlt, ← hbuffer]
    simp only [Option.map_some, Option.getD_some, Client.write, List.append_assoc]
  · rw [if_neg hwho, List.append_nil, List.getElem?_set_ne hwho]
    exact hbuffer

/-- An event that is no writing and takes nothing from a buffer leaves all of
    it accounted for. -/
theorem buffer_snoc (h : Accounted config s) (event : Event) (client : Nat)
    (hwritten : event.written client = []) (hdrained : event.drained config client = []) :
    (s.log ++ [event]).flatMap (Event.drained config client) ++ s.buffered client =
      (s.log ++ [event]).flatMap (Event.written client) := by
  rw [List.flatMap_append, List.flatMap_append, List.flatMap_singleton, List.flatMap_singleton,
    hwritten, hdrained, List.append_nil, List.append_nil]
  exact h.buffer client

/-- A turn takes from the buffer what the event it adds says. -/
theorem buffer_turn (hkept : Kept s) (hconfig : s.bus.link.config = config)
    (h : Accounted config s) (hid : s.errand? id = some e) (client : Nat) :
    (s.turn id e).log.flatMap (Event.drained config client) ++ (s.turn id e).buffered client =
      (s.turn id e).log.flatMap (Event.written client) := by
  have hcall := hkept.client id e hid
  have hlt : e.client < s.clients.length := (List.getElem?_eq_some_iff.mp hcall).1
  have hbuffer := h.buffer client
  have hdrains := (Call.step_goes (hkept.sound id e hid) id s.bus).drains
  have hlink : e.call.task.drained { config } e.call.client =
      e.call.task.drained s.bus.link e.call.client :=
    Task.drained_of_config hconfig.symm _ _
  simp only [turn, List.flatMap_append, List.flatMap_singleton, Event.drained, Event.written,
    List.append_nil, buffered] at hbuffer ⊢
  -- What leaves the buffer of this client is what its call has drained.
  by_cases hwho : e.client = client
  · rw [← hwho] at hbuffer ⊢
    rw [hcall, Option.map_some, Option.getD_some, ← hdrains] at hbuffer
    rw [List.getElem?_set_self hlt, Option.map_some, Option.getD_some, ← hbuffer,
      List.append_assoc]
    congr 2
    by_cases henters : e.call.enters id s.bus = true
    · simp only [if_pos henters, if_true, hlink]
    · simp only [if_neg henters]
  · -- The turn of another client takes nothing from this buffer.
    rw [List.getElem?_set_ne hwho]
    by_cases henters : e.call.enters id s.bus = true
    · simp only [if_pos henters, if_neg hwho, List.append_nil]
      exact hbuffer
    · simp only [if_neg henters, List.append_nil]
      exact hbuffer

/-- What was taken from a buffer and what is there are what was written to
    it. -/
theorem Does.buffer (hdoes : s.Does a s') (hkept : Kept s) (hconfig : s.bus.link.config = config)
    (h : Accounted config s) (client : Nat) :
    s'.log.flatMap (Event.drained config client) ++ s'.buffered client =
      s'.log.flatMap (Event.written client) := by
  cases hdoes with
  | refuse => exact h.buffer client
  | create hcreate =>
      rw [buffered_create (by rw [Client.create_ok hcreate])]
      exact h.buffer client
  | write hc hfree => exact buffer_write h hc _ client
  | call hc hfree => exact buffer_snoc h _ client rfl rfl
  | turn hid => exact buffer_turn hkept hconfig h hid client
  | drop hid => exact buffer_snoc h _ client rfl rfl
  | outside => exact h.buffer client

/-! ### Who has taken it -/

/-- The client that a turn in the log is about is that of the call. -/
theorem Does.turned (hdoes : s.Does a s') {note : Note} (hmem : .turned id note ∈ s'.log) :
    .turned id note ∈ s.log ∨ ∃ e, s.errand? id = some e ∧ note.client = e.client ∧
      note.task = e.call.task ∧ ∀ c, note.entered = some c → c = e.call.client := by
  refine (hdoes.noted hmem).imp_right ?_
  rintro ⟨e, hid, hnote⟩
  rw [hnote]
  refine ⟨e, hid, rfl, rfl, fun c hentered => ?_⟩
  by_cases henters : e.call.enters id s.bus = true
  · rw [Session.noted, if_pos henters, Option.some.injEq] at hentered
    exact hentered.symm
  · rw [Session.noted, if_neg henters] at hentered
    exact absurd hentered nofun

/-- An exchange is that of a client that is still the same. -/
theorem Does.entered (hdoes : s.Does a s') (hkept : Kept s) (h : Accounted config s)
    {note : Note} {c : Client} (hmem : .turned id note ∈ s'.log)
    (hentered : note.entered = some c) :
    note.task.Built ∧ ∃ c', s'.clients[note.client]? = some c' ∧
      c'.destination = c.destination ∧ c'.config = c.config := by
  rcases hdoes.turned hmem with hold | ⟨e, hid, hwho, htask, hclient⟩
  · rcases h.entered id note c hold hentered with ⟨hbuilt, c', hc', hdestination, hconfig⟩
    rcases hdoes.persists hkept hc' with ⟨c'', hc'', hdestination', hconfig'⟩
    exact ⟨hbuilt, c'', hc'', hdestination'.trans hdestination, hconfig'.trans hconfig⟩
  · rw [hwho, htask, hclient c hentered]
    exact ⟨h.built id e hid, hdoes.persists hkept (hkept.client id e hid)⟩

theorem Does.built (hdoes : s.Does a s') (hkept : Kept s) (h : Accounted config s)
    (he : s'.errand? id = some e) : e.call.task.Built := by
  cases hdoes with
  | refuse => exact h.built id e he
  | create hcreate => exact h.built id e he
  | write hc hfree => exact h.built id e he
  | @call client order limit c hc hfree =>
      rcases errand_call rfl he with ⟨_, hnew⟩ | ⟨_, hold⟩
      · rw [hnew]
        exact order.built_task
      · exact h.built id e hold
  | @turn id' e' hid =>
      rcases errand_turn hid he with ⟨_, c', hafter, hnew⟩ | ⟨_, hold⟩
      · rw [hnew, (Call.step_goes (hkept.sound id' e' hid) id' s.bus).again hafter]
        exact h.built id' e' hid
      · exact h.built id e hold
  | drop hid => exact h.built id e (errand_drop hid he).2
  | outside => exact h.built id e he

/-! ### When it was written -/

/-- What was written when a call was made stays all that was written when
    something else happens that is no writing of its client. -/
theorem called_snoc {client : Nat} {mark event : Event}
    (h : ∃ before, History.Last mark s.log before ∧
      before.flatMap (Event.written client) = s.log.flatMap (Event.written client))
    (hmark : event ≠ mark) (hwritten : event.written client = []) :
    ∃ before, History.Last mark (s.log ++ [event]) before ∧
      before.flatMap (Event.written client) =
        (s.log ++ [event]).flatMap (Event.written client) := by
  rcases h with ⟨before, hlast, hsame⟩
  refine ⟨before, hlast.snoc hmark, ?_⟩
  rw [List.flatMap_append, List.flatMap_singleton, hwritten, List.append_nil]
  exact hsame

/-- A call that has its client to itself was made when all was written that
    is. -/
theorem Does.called (hdoes : s.Does a s') (hkept : Kept s) (h : Accounted config s)
    (he : s'.errand? id = some e) (hshared : e.call.task.isShared = false) :
    ∃ before, History.Last (.called id e.client e.call.task) s'.log before ∧
      before.flatMap (Event.written e.client) = s'.log.flatMap (Event.written e.client) := by
  cases hdoes with
  | refuse => exact h.called id e he hshared
  | create hcreate => exact h.called id e he hshared
  | @write who bytes c hc hfree =>
      -- While the call is under way its client cannot write.
      have hne : who ≠ e.client := fun hclient =>
        Bool.false_ne_true (but_of_free hfree he hclient.symm)
      exact called_snoc (h.called id e he hshared) Event.noConfusion (if_neg hne)
  | call hc hfree =>
      rcases errand_call rfl he with ⟨hid, hnew⟩ | ⟨hid, hold⟩
      · rw [hid, hnew]
        refine ⟨s.log, .here _ _, ?_⟩
        simp only [List.flatMap_append, List.flatMap_singleton, Event.written, List.append_nil]
      · refine called_snoc (h.called id e hold hshared) ?_ rfl
        -- The number of the new call is its own.
        rw [ne_eq, Event.called.injEq]
        exact fun hc => hid hc.1.symm
  | @turn id' e' hid =>
      refine called_snoc ?_ Event.noConfusion rfl
      rcases errand_turn hid he with ⟨heq, c', hafter, hnew⟩ | ⟨_, hold⟩
      · rw [hnew, (Call.step_goes (hkept.sound id' e' hid) id' s.bus).again hafter] at hshared ⊢
        rw [heq]
        exact h.called id' e' hid hshared
      · exact h.called id e hold hshared
  | drop hid =>
      exact called_snoc (h.called id e (errand_drop hid he).2 hshared) Event.noConfusion rfl
  | outside => exact h.called id e he hshared

/-- Whatever an action comes to keeps the invariant. -/
theorem Does.accounted (hdoes : s.Does a s') (hkept : Kept s)
    (hconfig : s.bus.link.config = config) (h : Accounted config s) : Accounted config s' where
  buffer := hdoes.buffer hkept hconfig h
  entered := fun _ _ _ => hdoes.entered hkept h
  built := fun _ _ => hdoes.built hkept h
  called := fun _ _ => hdoes.called hkept h

/-- Every run keeps the invariant, by induction on what is done. -/
theorem run_accounted (hkept : Kept s) (hconfig : s.bus.link.config = config)
    (h : Accounted config s) (actions : List Action) : Accounted config (s.run actions) := by
  induction actions generalizing s with
  | nil => exact h
  | cons a actions ih =>
      have hdoes := act_does s a
      exact ih (hdoes.kept hkept) ((hdoes.link_config hkept).trans hconfig)
        (hdoes.accounted hkept hconfig h)

/-! ### At the far end -/

/-- The frames an exchange has queued at an event. -/
def Event.queued (config : Link.Config) (e : Event) : List Frame :=
  Frame.fitting (e.frames config)

theorem fits_of_queued (config : Link.Config) (log : List Event) :
    ∀ f ∈ log.flatMap (Event.queued config), f.Fits := by
  intro f hf
  rcases List.mem_flatMap.mp hf with ⟨event, _, hmem⟩
  exact Frame.fits_of_mem_fitting hmem

theorem group_eq_queued (config : Link.Config) (log : List Event) :
    log.flatMap (Event.group config) = (log.flatMap (Event.queued config)).flatMap Frame.bytes := by
  rw [List.flatMap_assoc]
  congr 1
  exact funext fun event => Frame.group_eq _

/-- Whoever has the same device and channel as a client is that client. -/
def Sole (client : Nat) (c : Client) (s : Session) : Prop :=
  ∀ other c', s.clients[other]? = some c' → c'.destination = c.destination →
    c'.config.channel = c.config.channel → other = client

variable {client : Nat} {c : Client}

/-- The frames queued at an event carry for a channel of a device what the
    only client with that channel has taken from its buffer. -/
theorem streamData_queued (h : Accounted config s) (hclient : s.clients[client]? = some c)
    (hsole : s.Sole client c) {event : Event} (hmem : event ∈ s.log) :
    (event.queued config).flatMap (Frame.streamData c.destination c.config.channel) =
      event.drained config client := by
  cases event with
  | wrote who bytes => rfl
  | called id who task => rfl
  | dropped id => rfl
  | turned id note =>
      simp only [Event.queued, Event.frames, Event.drained]
      cases hentered : note.entered with
      | none => rfl
      | some c₀ =>
          simp only []
          rcases h.entered id note c₀ hmem hentered with
            ⟨hbuilt, c', hc', hdestination, hconfig⟩
          -- An exchange of another client is with another device or on another channel.
          by_cases hwho : note.client = client
          · rw [hwho, hclient, Option.some.injEq] at hc'
            rw [if_pos hwho, hc', hdestination, hconfig]
            exact Task.streamData_fitting hbuilt
          · rw [if_neg hwho]
            refine Task.streamData_fitting_of_ne hbuilt fun hsame => hwho ?_
            refine hsole note.client c' hc' (hdestination.trans hsame.1) ?_
            rw [hconfig]
            exact hsame.2

theorem streamData_log (h : Accounted config s) (hclient : s.clients[client]? = some c)
    (hsole : s.Sole client c) :
    (s.log.flatMap (Event.queued config)).flatMap
        (Frame.streamData c.destination c.config.channel) =
      s.log.flatMap (Event.drained config client) := by
  rw [List.flatMap_assoc, List.flatMap_def, List.flatMap_def]
  congr 1
  exact List.map_congr_left fun event hmem => streamData_queued h hclient hsole hmem

/-- No frame holds more for a channel of a device than a chunk of the only
    client with that channel. -/
theorem length_streamData_log (h : Accounted config s) (hclient : s.clients[client]? = some c)
    (hsole : s.Sole client c) {f : Frame} (hf : f ∈ s.log.flatMap (Event.queued config)) :
    (f.streamData c.destination c.config.channel).length ≤ max 1 c.config.maxChunk.toNat := by
  rw [← Client.Config.chunkSize_toNat]
  rcases List.mem_flatMap.mp hf with ⟨event, hmem, hqueued⟩
  have hfits := Frame.fits_of_mem_fitting hqueued
  have hframe := Frame.mem_of_mem_fitting hqueued
  cases event with
  | wrote who bytes => exact absurd hframe List.not_mem_nil
  | called id who task => exact absurd hframe List.not_mem_nil
  | dropped id => exact absurd hframe List.not_mem_nil
  | turned id note =>
      simp only [Event.frames] at hframe
      cases hentered : note.entered with
      | none =>
          rw [hentered] at hframe
          exact absurd hframe List.not_mem_nil
      | some c₀ =>
          rw [hentered] at hframe
          rcases h.entered id note c₀ hmem hentered with
            ⟨hbuilt, c', hc', hdestination, hconfig⟩
          -- A frame for this device and channel is one of this client, which is alone there.
          by_cases hsame : c₀.destination = c.destination ∧ c₀.config.channel = c.config.channel
          · have hwho : note.client = client :=
              hsole note.client c' hc' (hdestination.trans hsame.1) (by rw [hconfig]; exact hsame.2)
            rw [hwho, hclient, Option.some.injEq] at hc'
            rw [hc', hconfig]
            exact Task.length_streamData_le hbuilt hfits hframe _ _
          · rw [Task.streamData_of_ne hbuilt hfits hframe hsame]
            exact Nat.zero_le _

/-- A turn that adds an event is a turn of a call that is under way. -/
theorem turn_of_log {note : Note} (h : (s.act (.turn id)).log = s.log ++ [.turned id note]) :
    ∃ e, s.errand? id = some e ∧ s.act (.turn id) = s.turn id e ∧ note.client = e.client ∧
      note.task = e.call.task ∧ note.heard = e.call.heard s.bus ∧
      note.ended = Call.ended (e.call.step id s.bus).1 := by
  simp only [act] at h ⊢
  split at h
  · exact absurd (List.self_eq_append_right.mp h) (List.cons_ne_nil _ _)
  · rename_i e hid
    have hlast := List.append_cancel_left h
    rw [List.cons.injEq, Event.turned.injEq] at hlast
    rw [← hlast.1.2]
    exact ⟨e, hid, rfl, rfl, rfl, rfl, rfl⟩

/-- The stream bytes a strict reader finds in some bytes, for a channel of a
    device. -/
def streamOf (c : Client) (bytes : List UInt8) : List UInt8 :=
  (Frame.decoded bytes).flatMap fun f => f.streamData c.destination c.config.channel

theorem streamOf_arrived {bytes : List UInt8} {frames : List Frame}
    (h : Frame.decoded bytes = frames.map Frame.arrived) :
    streamOf c bytes = frames.flatMap (Frame.streamData c.destination c.config.channel) := by
  rw [streamOf, h, List.flatMap_map]
  rfl

/-- A drain that ends well has sent all that was written before it was called. -/
theorem sent_of_drain (hkept : Kept s) (haccounted : Accounted config s)
    (hclient : s.clients[client]? = some c)
    (hall : streamOf c s.bus.traffic ++ c.writeBuffer = s.log.flatMap (Event.written client))
    {id : Nat} {note : Note} {answer : Answer}
    (hlog : (s.act (.turn id)).log = s.log ++ [.turned id note]) (hwho : note.client = client)
    (htask : note.task = .drain) (hended : note.ended = some (.ok answer)) :
    ∃ before, History.Last (.called id client .drain) s.log before ∧
      streamOf c (s.act (.turn id)).bus.wire.sent = before.flatMap (Event.written client) := by
  rcases turn_of_log hlog with ⟨e, hid, hturn, hnoteClient, hnoteTask, _, hnoteEnded⟩
  rw [hwho] at hnoteClient
  rw [htask] at hnoteTask
  rw [hended] at hnoteEnded
  have hgoes := Call.step_goes (hkept.sound id e hid) id s.bus
  rcases hgoes.drained (hkept.sound id e hid) (hkept.ahead id e hid) hnoteTask.symm
    hnoteEnded.symm with ⟨hdrained, hempty⟩
  rcases haccounted.called id e hid (by rw [← hnoteTask]; rfl) with ⟨before, hlast, hwritten⟩
  rw [← hnoteClient, ← hnoteTask] at hlast
  rw [← hnoteClient] at hwritten
  -- The call has the client as it is, and nothing of it is buffered any more.
  have hcall := hkept.client id e hid
  rw [← hnoteClient, hclient, Option.some.injEq] at hcall
  rw [← hcall] at hempty
  refine ⟨before, hlast, ?_⟩
  rw [hwritten, ← hall, hempty, List.append_nil, hturn]
  simp only [turn]
  rw [hdrained]

/-- What a device hears of a stream is what was written to it. For a client
    that was let in and has its channel of its device to itself, whatever else
    goes on and wherever calls fail or are dropped: a strict reader of what
    was sent finds frames whose checksums match, and then at most one that is
    not complete. The data these frames hold for the client is a part from
    the start of what the client has written, in chunks of the size
    configured. With what is still on its way and what is still buffered it is
    all of that, and after a drain that succeeds it is all that was written
    when the drain was called. -/
theorem stream_outgoing (config : Link.Config) (actions : List Action) (client : Nat)
    (c : Client) (hclient : ((start config).run actions).clients[client]? = some c)
    (hsole : ((start config).run actions).Sole client c) :
    let s := (start config).run actions
    (Frame.decodeAll { crcPolicy := .enforce } s.bus.wire.sent).1.map Frame.Call.result =
        (Frame.decoded s.bus.wire.sent).map (fun f => .ok (some f)) ++ [.ok none] ∧
      (∀ f ∈ Frame.decoded s.bus.wire.sent, f.crcOk = true ∧
        (f.streamData c.destination c.config.channel).length ≤ max 1 c.config.maxChunk.toNat) ∧
      streamOf c s.bus.wire.sent <+: s.log.flatMap (Event.written client) ∧
      streamOf c (s.bus.wire.sent ++ s.bus.link.inFlight ++ s.bus.link.outbound) ++
          c.writeBuffer =
        s.log.flatMap (Event.written client) ∧
      (∀ id note answer, (s.act (.turn id)).log = s.log ++ [.turned id note] →
        note.client = client → note.task = .drain → note.ended = some (.ok answer) →
          ∃ before, History.Last (.called id client .drain) s.log before ∧
            streamOf c (s.act (.turn id)).bus.wire.sent =
              before.flatMap (Event.written client)) := by
  intro s
  have hkept : Kept s := run_kept (kept_start config) actions
  have haccounted : Accounted config s :=
    run_accounted (kept_start config) rfl (accounted_start config) actions
  have htraffic : s.bus.traffic = (s.log.flatMap (Event.queued config)).flatMap Frame.bytes :=
    (run_traffic (kept_start config) rfl rfl actions).trans (group_eq_queued config s.log)
  have hfits := fits_of_queued config s.log
  -- What was sent is a part, from its start, of a run of frames that all fit.
  have hsent : s.bus.wire.sent <+: (s.log.flatMap (Event.queued config)).flatMap Frame.bytes := by
    rw [← htraffic, Bus.traffic, List.append_assoc]
    exact List.prefix_append _ _
  rcases Frame.decoded_of_prefix hfits hsent with ⟨whole, later, hframes, hdecoded, hcalls⟩
  have hall : streamOf c s.bus.traffic ++ c.writeBuffer =
      s.log.flatMap (Event.written client) := by
    have hbuffer := haccounted.buffer client
    rw [buffered, hclient, Option.map_some, Option.getD_some] at hbuffer
    rw [htraffic, streamOf_arrived (Frame.decoded_flatMap hfits),
      streamData_log haccounted hclient hsole, hbuffer]
  refine ⟨hcalls, ?_, ?_, hall, ?_⟩
  · intro f hf
    rw [hdecoded] at hf
    rcases List.mem_map.mp hf with ⟨g, hg, harrived⟩
    rw [← harrived]
    refine ⟨rfl, length_streamData_log haccounted hclient hsole ?_⟩
    rw [hframes]
    exact List.mem_append_left _ hg
  · -- What is sent are the first of the frames, so its data are the first of the data.
    rw [← hall, htraffic, streamOf_arrived (Frame.decoded_flatMap hfits),
      streamOf_arrived hdecoded, hframes, List.flatMap_append, List.append_assoc]
    exact List.prefix_append _ _
  · intro id note answer hlog hwho htask hended
    exact sent_of_drain hkept haccounted hclient hall hlog hwho htask hended

/-- Two bytes that are written and drained: the next turn ends the drain. -/
theorem stream_outgoing_two_bytes :
    let s := (start {}).run [.create 5 {}, .write 0 [0x68, 0x69], .call 0 .drain none,
      .turn 0, .turn 0, .turn 0, .turn 0, .turn 0]
    let c : Client := { destination := 5 }
    s.clients[0]? = some c ∧ s.Sole 0 c ∧
      streamOf c (s.bus.wire.sent ++ s.bus.link.inFlight ++ s.bus.link.outbound) ++
          c.writeBuffer = [0x68, 0x69] ∧
      ∃ before, History.Last (.called 0 0 .drain) s.log before ∧
        streamOf c (s.act (.turn 0)).bus.wire.sent = before.flatMap (Event.written 0) := by
  intro s c
  have hclients : s.clients = [c] := by decide +kernel
  have hclient : s.clients[0]? = some c := by
    rw [hclients]
    rfl
  -- There is one client, so no other can have its device and channel.
  have hsole : s.Sole 0 c := by
    intro other c' hother _ _
    rw [hclients] at hother
    cases other with
    | zero => rfl
    | succ n => simp only [List.getElem?_cons_succ, List.getElem?_nil, reduceCtorEq] at hother
  have hwritten : s.log.flatMap (Event.written 0) = [0x68, 0x69] := by decide +kernel
  have hlog : (s.act (.turn 0)).log = s.log ++ [.turned 0 {
      client := 0
      task := .drain
      entered := none
      heard := none
      ended := some (.ok .done) }] := by decide +kernel
  rcases stream_outgoing {} _ 0 c hclient hsole with ⟨_, _, _, hall, hdrained⟩
  exact ⟨hclient, hsole, hall.trans hwritten, hdrained 0 _ .done hlog rfl rfl rfl⟩

end Session

end Multidrop
