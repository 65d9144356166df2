import Multidrop.Proofs.Call.Reading
import Multidrop.Proofs.Session

/-!
# The Stream from a Device

What a client hears of its device on its channel is what its reads return, in
order, and what is still buffered. Polls put what they hear into the buffer at
the turn at which they hear it, so it stays there when the poll later fails,
runs out of time or is dropped; and reads take from the buffer at the turn at
which they answer, so a read that does not answer takes nothing.

The line ends that go with a line, or before it, are returned to nobody. They
are accounted for as what a read of lines takes.

## Main definitions

* `Event.accepted`: What a poll of a client takes from a frame.
* `Taken`: What the reads of a client have taken.
* `Receives`: What a client hears and takes between two moments.
* `Balanced`: The invariant of every run.

## Theorems

* `Does.receives`, `Receives.run`: What a client hears and takes at an action, and in a
  run.
* `run_balanced`: Every run keeps the invariant.
* `stream_incoming`: What was heard is what was read and what is buffered.
-/

namespace Multidrop

namespace Session

/-- The stream bytes in a frame that was delivered to a poll of a client at an
    event: those of its first sub-frame, if that comes from the device and is
    a stream to the host on the channel. -/
def Event.accepted (client : Nat) (destination : UInt8) (channel : UInt32) :
    Event → List UInt8
  | .turned _ note =>
    match note.heard with
    | some (.ok (some f)) =>
      if note.client = client ∧ note.task.polls ∧ f.source = destination then
        Stream.carried Subframe.toHost channel f.payload
      else []
    | _ => []
  | _ => []

/-- What a client takes from its buffer at an event. -/
def Event.Takes (client : Nat) (part : List UInt8) : Event → Prop
  | .turned _ note => if note.client = client then note.task.Takes part note.ended else part = []
  | _ => part = []

/-- What the reads of a client have taken from its buffer, in order. -/
inductive Taken (client : Nat) : List Event → List UInt8 → Prop where
  | nil : Taken client [] []
  | snoc {log : List Event} {event : Event} {taken part : List UInt8}
      (h : Taken client log taken) (htakes : event.Takes client part) :
      Taken client (log ++ [event]) (taken ++ part)

/-- What a client has received and not read. -/
def unread (client : Nat) (s : Session) : List UInt8 :=
  (s.clients[client]?.map Client.readBuffer).getD []

/-- Between two moments, at which some events happen, a client takes `taken` from
    its buffer. What it hears of a device on a channel goes behind the buffer, if
    those are its own. -/
structure Receives (client : Nat) (s : Session) (events : List Event) (taken : List UInt8)
    (s' : Session) : Prop where
  log : s'.log = s.log ++ events
  takes : Taken client events taken
  balance : ∀ destination channel,
    (∀ c, s'.clients[client]? = some c → c.destination = destination ∧
      c.config.channel = channel) →
    s.unread client ++ events.flatMap (Event.accepted client destination channel) =
      taken ++ s'.unread client

/-- The invariant of every run: what a client has heard of a device on a
    channel, if those are its own, was taken from its buffer or is still
    there. -/
def Balanced (client : Nat) (s : Session) : Prop :=
  ∃ taken, Taken client s.log taken ∧ ∀ destination channel,
    (∀ c, s.clients[client]? = some c → c.destination = destination ∧
      c.config.channel = channel) →
    s.log.flatMap (Event.accepted client destination channel) = taken ++ s.unread client

variable {s s' s'' : Session} {client id : Nat} {c : Client} {e : Errand} {event : Event}
  {events more : List Event} {taken part : List UInt8}

theorem balanced_start (config : Link.Config) (client : Nat) :
    Balanced client (start config) :=
  ⟨[], .nil, fun _ _ _ => rfl⟩

theorem Taken.append (h : Taken client events taken) (hmore : Taken client more part) :
    Taken client (events ++ more) (taken ++ part) := by
  induction hmore with
  | nil =>
      rw [List.append_nil, List.append_nil]
      exact h
  | snoc hmore htakes ih =>
      rw [← List.append_assoc, ← List.append_assoc]
      exact ih.snoc htakes

theorem receives_refl (client : Nat) (s : Session) : Receives client s [] [] s where
  log := (List.append_nil _).symm
  takes := .nil
  balance _ _ _ := List.append_nil _

/-- What happens later goes behind. A client that is there talks to the same
    device later on. -/
theorem Receives.trans (h : Receives client s events taken s')
    (hmore : Receives client s' more part s'')
    (hclients : ∀ c, s'.clients[client]? = some c → ∃ c', s''.clients[client]? = some c' ∧
      c'.destination = c.destination ∧ c'.config = c.config) :
    Receives client s (events ++ more) (taken ++ part) s'' where
  log := by rw [hmore.log, h.log, List.append_assoc]
  takes := h.takes.append hmore.takes
  balance := by
    intro destination channel hsame
    -- In between the client has talked to whom it talks to at the end.
    have hbefore := h.balance destination channel fun c hc => by
      rcases hclients c hc with ⟨c', hc', hdestination, hconfig⟩
      have hown := hsame c' hc'
      rw [hdestination, hconfig] at hown
      exact hown
    rw [List.flatMap_append, ← List.append_assoc, hbefore, List.append_assoc,
      hmore.balance destination channel hsame, List.append_assoc]

/-- At an event that is no turn, or a turn of another client, a client hears and
    takes nothing. -/
theorem receives_event (hlog : s'.log = s.log ++ [event])
    (hunread : s'.unread client = s.unread client)
    (haccepted : ∀ destination channel, event.accepted client destination channel = [])
    (htakes : event.Takes client []) : Receives client s [event] [] s' where
  log := hlog
  takes := Taken.nil.snoc htakes
  balance := by
    intro destination channel _
    rw [List.flatMap_singleton, haccepted, List.append_nil, hunread]
    rfl

/-- A client that is new has nothing to read. -/
theorem receives_create (client : Nat) (s : Session) (hempty : c.readBuffer = []) :
    Receives client s [] [] { s with clients := s.clients ++ [c] } where
  log := (List.append_nil _).symm
  takes := .nil
  balance := by
    intro destination channel _
    rw [List.flatMap_nil, List.append_nil, List.nil_append, unread, unread]
    by_cases hlt : client < s.clients.length
    · rw [List.getElem?_append_left hlt]
    · -- No client had the number, and the new one may have got it.
      rw [List.getElem?_eq_none (by omega), List.getElem?_append_right (by omega)]
      cases client - s.clients.length with
      | zero => exact hempty.symm
      | succ n => rfl

/-- What is written is kept apart from what was received. -/
theorem unread_write {who : Nat} (hc : s.clients[who]? = some c) (bytes : List UInt8)
    (log : List Event) (client : Nat) :
    unread client { s with clients := s.clients.set who (c.write bytes), log } =
      s.unread client := by
  have hlt : who < s.clients.length := (List.getElem?_eq_some_iff.mp hc).1
  simp only [unread]
  by_cases hwho : who = client
  · rw [← hwho, List.getElem?_set_self hlt, hc]
    rfl
  · rw [List.getElem?_set_ne hwho]

/-- What a turn of a client keeps is what it accepts from its device. -/
theorem accepted_turn (call : Call) (bus : Bus) (id : Nat) (note : Note)
    (hclient : note.client = client) (htask : note.task = call.task)
    (hheard : note.heard = call.heard bus) :
    (Event.turned id note).accepted client call.client.destination call.client.config.channel =
      call.kept (call.heard bus) := by
  simp only [Event.accepted, hclient, htask, hheard]
  cases hresult : call.heard bus with
  | none => rfl
  | some result =>
      cases result with
      | error e => rfl
      | ok received =>
          cases received with
          | none => rfl
          | some f =>
              simp only [Call.kept, true_and]
              by_cases hpolls : call.task.polls = true
              · rw [if_pos ⟨hpolls, Call.heard_source hpolls hresult⟩, if_pos hpolls]
              · rw [if_neg (fun hc => hpolls hc.1), if_neg hpolls]

/-- A turn of a client accepts what goes behind its buffer, and takes what
    goes from its front. -/
theorem receives_turn (hkept : Kept s) (hid : s.errand? id = some e) :
    ∃ events part, Receives e.client s events part (s.turn id e) := by
  have hgoes := Call.step_goes (hkept.sound id e hid) id s.bus
  have hcall := hkept.client id e hid
  have hlt : e.client < s.clients.length := (List.getElem?_eq_some_iff.mp hcall).1
  have hafter : (s.turn id e).clients[e.client]? =
      some (e.call.clientAfter (e.call.step id s.bus).1) := List.getElem?_set_self hlt
  rcases hgoes.reads with ⟨part, htakes, hbuffer⟩
  refine ⟨_, part, rfl, Taken.nil.snoc ?_, ?_⟩
  · rw [Event.Takes, if_pos rfl]
    exact htakes
  · intro destination channel hsame
    -- The client talks to whom it talked to before the turn.
    have hown := hsame _ hafter
    rw [hgoes.client.1, hgoes.client.2] at hown
    rw [unread, hcall, Option.map_some, Option.getD_some, unread, hafter, Option.map_some,
      Option.getD_some, List.flatMap_singleton, ← hown.1, ← hown.2,
      accepted_turn e.call s.bus id]
    · exact hbuffer
    · rfl
    · rfl
    · rfl

/-- A turn of another client is no matter. -/
theorem receives_turn_of_ne (hwho : e.client ≠ client) :
    ∃ events part, Receives client s events part (s.turn id e) := by
  refine ⟨_, [], receives_event rfl ?_ ?_ ?_⟩
  · simp only [unread, turn]
    rw [List.getElem?_set_ne hwho]
  · intro destination channel
    simp only [Event.accepted]
    split
    · rw [if_neg fun hc => hwho hc.1]
    · rfl
  · rw [Event.Takes, if_neg hwho]

/-- What a client hears and takes at an action. -/
theorem Does.receives {a : Action} (hdoes : s.Does a s') (hkept : Kept s) (client : Nat) :
    ∃ events part, Receives client s events part s' := by
  cases hdoes with
  | refuse => exact ⟨_, _, receives_refl client s⟩
  | create hcreate => exact ⟨_, _, receives_create client s (by rw [Client.create_ok hcreate])⟩
  | write hc hfree =>
      exact ⟨_, _, receives_event rfl (unread_write hc _ _ client) (fun _ _ => rfl) rfl⟩
  | call hc hfree => exact ⟨_, _, receives_event rfl rfl (fun _ _ => rfl) rfl⟩
  | @turn id e hid =>
      by_cases hwho : e.client = client
      · rw [← hwho]
        exact receives_turn hkept hid
      · exact receives_turn_of_ne hwho
  | drop hid => exact ⟨_, _, receives_event rfl rfl (fun _ _ => rfl) rfl⟩
  | outside => exact ⟨_, _, (List.append_nil _).symm, .nil, fun _ _ _ => List.append_nil _⟩

/-- What it hears and takes goes on in a run, by induction on what is done. -/
theorem Receives.run (hkept : Kept s') (h : Receives client s events taken s')
    (actions : List Action) :
    ∃ events taken, Receives client s events taken (s'.run actions) := by
  induction actions generalizing s' events taken with
  | nil => exact ⟨events, taken, h⟩
  | cons a actions ih =>
      have hdoes := act_does s' a
      rcases hdoes.receives hkept client with ⟨more, part, hmore⟩
      exact ih (hdoes.kept hkept) (h.trans hmore fun c hc => hdoes.persists hkept hc)

/-- Every run keeps the invariant, which says what was heard and taken since
    there was nothing. -/
theorem run_balanced (hkept : Kept s) (h : Balanced client s) (actions : List Action) :
    Balanced client (s.run actions) := by
  rcases h with ⟨taken, htaken, hbalance⟩
  have hreceives : Receives client {} s.log taken s := ⟨rfl, htaken, hbalance⟩
  rcases hreceives.run hkept actions with ⟨events, taken', hlog, htaken', hbalance'⟩
  have hevents : (s.run actions).log = events := hlog
  exact ⟨taken', hevents ▸ htaken', hevents ▸ hbalance'⟩

/-- Every event has its part in what was taken. -/
theorem Taken.takes {log : List Event} {taken : List UInt8} (h : Taken client log taken)
    (hmem : event ∈ log) : ∃ part, event.Takes client part := by
  induction h with
  | nil => exact absurd hmem List.not_mem_nil
  | snoc h htakes ih =>
      rcases List.mem_append.mp hmem with hold | hnew
      · exact ih hold
      · rw [List.mem_singleton.mp hnew]
        exact ⟨_, htakes⟩

/-- What a client hears of a stream is what its device has sent it. However
    its calls take turns with those of others, fail, run out of time or are
    dropped: the stream bytes in the frames that were delivered to its polls,
    of its device and its channel and of no other, are those its reads have
    taken, in order, and then those in its buffer. A read that succeeds gives
    as many bytes as it was asked for. -/
theorem stream_incoming (config : Link.Config) (actions : List Action) (client : Nat)
    (c : Client) (hclient : ((start config).run actions).clients[client]? = some c) :
    let s := (start config).run actions
    (∃ taken, Taken client s.log taken ∧
      s.log.flatMap (Event.accepted client c.destination c.config.channel) =
        taken ++ c.readBuffer) ∧
      ∀ id note size answer, .turned id note ∈ s.log → note.client = client →
        note.task = .read size → note.ended = some (.ok answer) →
          ∃ bytes, answer = .bytes bytes ∧ bytes.length = size := by
  intro s
  rcases run_balanced (kept_start config) (balanced_start config client) actions with
    ⟨taken, htaken, hbalance⟩
  refine ⟨⟨taken, htaken, ?_⟩, ?_⟩
  · -- Neither the device nor the channel of a client ever changes.
    have haccepted := hbalance c.destination c.config.channel fun c' hc' => by
      rw [hclient, Option.some.injEq] at hc'
      rw [hc']
      exact ⟨rfl, rfl⟩
    rw [unread, hclient] at haccepted
    exact haccepted
  · intro id note size answer hmem hwho htask hended
    rcases htaken.takes hmem with ⟨part, htakes⟩
    rw [Event.Takes, if_pos hwho, htask, hended] at htakes
    exact ⟨part, htakes⟩

/-- Three bytes that arrive, of which two are read. -/
theorem stream_incoming_two_of_three :
    let arrivals : Arrivals :=
      [(0, .data 0x54 [0xab, 5, 0, 6, 0x41, 1, 3, 0x68, 0x69, 0x21, 0xf2, 0xcd])]
    let s := (start {}).run [.create 5 {}, .call 0 (.read 2) none, .turn 0, .turn 0, .turn 0,
      .turn 0, .turn 0, .turn 0, .outside 0 { arrivals }, .turn 0, .turn 0, .turn 0,
      .outside (.ofMillis 100) {}, .turn 0]
    let c : Client := { destination := 5, readBuffer := [0x21] }
    s.clients[0]? = some c ∧
      (∃ taken, Taken 0 s.log taken ∧ [0x68, 0x69, 0x21] = taken ++ [0x21]) ∧
      ∃ bytes, Answer.bytes [0x68, 0x69] = .bytes bytes ∧ bytes.length = 2 := by
  intro arrivals s c
  -- Three bytes come in, two are read, and one stays in the buffer.
  have hrun : s.clients[0]? = some c ∧
      s.log.flatMap (Event.accepted 0 5 1) = [0x68, 0x69, 0x21] ∧
      .turned 0 {
        client := 0
        task := .read 2
        entered := none
        heard := none
        ended := some (.ok (.bytes [0x68, 0x69])) } ∈ s.log := by decide +kernel
  rcases hrun with ⟨hclient, haccepted, hread⟩
  rcases stream_incoming {} _ 0 c hclient with ⟨⟨taken, htaken, hbalance⟩, hexact⟩
  exact ⟨hclient, ⟨taken, htaken, haccepted.symm.trans hbalance⟩,
    hexact 0 _ 2 _ hread rfl rfl rfl⟩

end Session

end Multidrop
