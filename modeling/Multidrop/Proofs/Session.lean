import Multidrop.Proofs.Call.Effects

/-!
# Sessions

Any number of clients on one link, each doing one thing after another, all at
the same time. A session says nothing about who takes a turn when. Calls are
made at any moment, take their turns in any order, and may be dropped between
any two of them; the wire changes its mind about everything but what was sent,
and time passes as it likes.

Two rules come from the clients themselves. A call that changes its client has
the client to itself, so nothing is buffered for the device and no other call
is made until it is over, while calls that leave the client alone may share
it. And a request is built from operations, never from bytes.

## Main definitions

* `Order`: What a client can be asked to do.
* `Errand`: A call under way, and the client that makes it.
* `Session`: A bus, clients, their errands, and what has happened.
* `Session.Action`: What can be done next.
* `Session.act`, `Session.run`: Doing it.
* `Session.Does`: Everything an action can come to.
* `Session.Kept`: The invariant of every run.
* `Session.noted`: What a turn of a call leaves in the log.

## Theorems

* `act_does`: What is said here of actions is all they can do.
* `Does.kept`, `run_kept`: Every action and every run keeps the invariant.
* `Does.persists`: No action changes whom a client talks to.
* `Does.log`, `Does.noted`: What an action adds to the log.
* `run_noted`: What holds of every turn holds of all turns in the log.
-/

namespace Multidrop

/-- A client that is let in is new: nothing is buffered. -/
theorem Client.create_ok {destination : UInt8} {config : Client.Config} {c : Client}
    (h : Client.create destination config = .ok c) : c = { destination, config } := by
  unfold Client.create at h
  split at h
  · exact absurd h nofun
  · split at h
    · exact absurd h nofun
    · split at h
      · exact absurd h nofun
      · exact (Except.ok.inj h).symm

/-- What a client can be asked to do. -/
inductive Order where
  | drain
  | poll
  | read (size : Nat)
  | readLine
  | query (operations : List Register.Operation)
  | write (operations : List Register.Operation)
  /-- Send a request, and wait for the reply if it asks for one. -/
  | request (operations : List Register.Operation)

/-- The task a client is given. -/
def Order.task : Order → Task
  | .drain => .drain
  | .poll => .poll
  | .read size => .read size
  | .readLine => .readLine
  | .query operations => Task.build operations fun request => .query request.bytes
  | .write operations => Task.build operations fun request => .write request.bytes
  | .request operations => Task.build operations Task.ofRequest

/-- A call under way, and the client that makes it. -/
structure Errand where
  client : Nat
  call : Call

namespace Session

/-- What a turn of a call came to. -/
structure Note where
  client : Nat
  task : Task
  /-- The client as it was, if the turn is the one at which an exchange has got
      the lock. -/
  entered : Option Client
  /-- What was taken from the wire, if that was the end of a reception. -/
  heard : Option Reception.Result
  /-- How the call ended, if it did. -/
  ended : Option Call.Result
  deriving DecidableEq

/-- What has happened on a link and to its clients. -/
inductive Event where
  /-- Stream bytes were buffered. -/
  | wrote (client : Nat) (bytes : List UInt8)
  | called (id : Nat) (client : Nat) (task : Task)
  | turned (id : Nat) (note : Note)
  | dropped (id : Nat)
  deriving DecidableEq

/-- What can be done next. -/
inductive Action where
  | create (destination : UInt8) (config : Client.Config)
  | write (client : Nat) (bytes : List UInt8)
  | call (client : Nat) (order : Order) (limit : Option Duration)
  /-- Let a call take a turn. -/
  | turn (id : Nat)
  /-- Drop a call. -/
  | drop (id : Nat)
  /-- Let time pass, and the wire change in all but what was sent. -/
  | outside (now : Duration) (wire : Wire)

end Session

/-- A bus, the clients on it, the calls they have made, and what has
    happened. A call that is over leaves its place empty. -/
structure Session where
  bus : Bus := {}
  clients : List Client := []
  errands : List (Option Errand) := []
  log : List Session.Event := []

namespace Session

/-- A link without clients. -/
def start (config : Link.Config) : Session where
  bus := { link := { config } }

/-- The call with a number, if it is under way. -/
def errand? (id : Nat) (s : Session) : Option Errand :=
  s.errands[id]?.join

/-- Whether a client has no calls under way, but for some that do not
    matter. -/
def isFree (client : Nat) (but : Task → Bool) (s : Session) : Bool :=
  s.errands.all fun place => place.all fun e => e.client ≠ client || but e.call.task

/-- A call that a client makes now. -/
def callOf (c : Client) (task : Task) (limit : Option Duration) (s : Session) : Call where
  task := task
  client := c
  started := s.bus.now
  limit := limit

/-- Let a call take a turn, and keep what becomes of its client. -/
def turn (id : Nat) (e : Errand) (s : Session) : Session :=
  let move := e.call.step id s.bus
  { bus := move.2
    clients := s.clients.set e.client (e.call.clientAfter move.1)
    errands := s.errands.set id ((e.call.after move.1).map ({ e with call := · }))
    log := s.log ++ [.turned id {
      client := e.client
      task := e.call.task
      entered := if e.call.enters id s.bus then some e.call.client else none
      heard := e.call.heard s.bus
      ended := Call.ended move.1 }] }

/-- Drop a call. Its place in line goes with it, or the lock. -/
def drop (id : Nat) (s : Session) : Session :=
  { s with
    bus := { s.bus with lock := s.bus.lock.leave id }
    errands := s.errands.set id none
    log := s.log ++ [.dropped id] }

/-- Do something. Nothing comes of what a client does not allow, of a client
    that there is not, or of a turn of a call that is not under way. -/
def act (s : Session) : Action → Session
  | .create destination config =>
      match Client.create destination config with
      | .error _ => s
      | .ok c => { s with clients := s.clients ++ [c] }
  | .write client bytes =>
      match s.clients[client]? with
      | none => s
      | some c =>
        if s.isFree client (fun _ => false) then
          { s with
            clients := s.clients.set client (c.write bytes)
            log := s.log ++ [.wrote client bytes] }
        else s
  | .call client order limit =>
      match s.clients[client]? with
      | none => s
      | some c =>
        if s.isFree client (fun task => task.isShared && order.task.isShared) then
          { s with
            errands := s.errands ++ [some { client, call := s.callOf c order.task limit }]
            log := s.log ++ [.called s.errands.length client order.task] }
        else s
  | .turn id =>
      match s.errand? id with
      | none => s
      | some e => s.turn id e
  | .drop id =>
      match s.errand? id with
      | none => s
      | some _ => s.drop id
  | .outside now wire =>
      { s with bus := { s.bus with
          now := max s.bus.now now
          wire := s.bus.wire.outside wire } }

/-- Do one thing after another. -/
def run (s : Session) (actions : List Action) : Session :=
  actions.foldl act s

/-- Everything an action can come to. -/
inductive Does (s : Session) : Action → Session → Prop where
  /-- Nothing comes of it. -/
  | refuse {a : Action} : Does s a s
  | create {destination : UInt8} {config : Client.Config} {c : Client}
      (hcreate : Client.create destination config = .ok c) :
      Does s (.create destination config) { s with clients := s.clients ++ [c] }
  /-- A client that has no calls under way buffers stream bytes. -/
  | write {client : Nat} {bytes : List UInt8} {c : Client} (hc : s.clients[client]? = some c)
      (hfree : s.isFree client (fun _ => false) = true) :
      Does s (.write client bytes) { s with
        clients := s.clients.set client (c.write bytes)
        log := s.log ++ [.wrote client bytes] }
  /-- A client makes a call, and has no other calls under way unless all of
      them share it. -/
  | call {client : Nat} {order : Order} {limit : Option Duration} {c : Client}
      (hc : s.clients[client]? = some c)
      (hfree : s.isFree client (fun task => task.isShared && order.task.isShared) = true) :
      Does s (.call client order limit) { s with
        errands := s.errands ++ [some { client, call := s.callOf c order.task limit }]
        log := s.log ++ [.called s.errands.length client order.task] }
  | turn {id : Nat} {e : Errand} (hid : s.errand? id = some e) :
      Does s (.turn id) (s.turn id e)
  | drop {id : Nat} {e : Errand} (hid : s.errand? id = some e) : Does s (.drop id) (s.drop id)
  | outside {now : Duration} {wire : Wire} :
      Does s (.outside now wire) { s with bus := { s.bus with
        now := max s.bus.now now
        wire := s.bus.wire.outside wire } }

/-- The invariant of every run: a call in the middle of an exchange holds the
    lock, a call has its client as it is now, only calls that leave it alone
    share a client, and each call has come as far as its stage says. -/
structure Kept (s : Session) : Prop where
  holder : ∀ id e, s.errand? id = some e → e.call.stage.exchanging = true →
    s.bus.lock.holder = some id
  client : ∀ id e, s.errand? id = some e → s.clients[e.client]? = some e.call.client
  alone : ∀ id id' e e', s.errand? id = some e → s.errand? id' = some e' →
    e.client = e'.client → id ≠ id' →
      e.call.task.isShared = true ∧ e'.call.task.isShared = true
  sound : ∀ id e, s.errand? id = some e → e.call.Sound
  ahead : ∀ id e, s.errand? id = some e → e.call.Ahead s.bus

variable {s s' : Session} {id id' client : Nat} {e e' : Errand}

theorem act_does (s : Session) (a : Action) : s.Does a (s.act a) := by
  cases a with
  | create destination config =>
      simp only [act]
      split
      · exact .refuse
      · rename_i c hcreate
        exact .create hcreate
  | write client bytes =>
      simp only [act]
      split
      · exact .refuse
      · rename_i c hc
        -- The guard of a call: those of the client that are open have to share it.
        by_cases hfree : s.isFree client (fun _ => false) = true
        · rw [if_pos hfree]
          exact .write hc hfree
        · rw [if_neg hfree]
          exact .refuse
  | call client order limit =>
      simp only [act]
      split
      · exact .refuse
      · rename_i c hc
        by_cases hfree :
            s.isFree client (fun task => task.isShared && order.task.isShared) = true
        · rw [if_pos hfree]
          exact .call hc hfree
        · rw [if_neg hfree]
          exact .refuse
  | turn id =>
      simp only [act]
      split
      · exact .refuse
      · rename_i e hid
        exact .turn hid
  | drop id =>
      simp only [act]
      split
      · exact .refuse
      · rename_i e hid
        exact .drop hid
  | outside now wire => exact .outside

/-! ### Places -/

theorem lt_of_errand (h : s.errand? id = some e) : id < s.errands.length := by
  rw [errand?, Option.join_eq_some_iff] at h
  exact (List.getElem?_eq_some_iff.mp h).1

theorem mem_of_errand (h : s.errand? id = some e) : some e ∈ s.errands := by
  rw [errand?, Option.join_eq_some_iff] at h
  exact List.mem_of_getElem? h

/-- What is in a place after something has been put in one. -/
theorem errand_set {place : Option Errand} (hlt : id < s.errands.length)
    (h : s'.errands = s.errands.set id place) :
    s'.errand? id' = if id' = id then place else s.errand? id' := by
  rw [errand?, errand?, h]
  by_cases hid : id' = id
  · rw [if_pos hid, hid, List.getElem?_set_self hlt]
    rfl
  · rw [if_neg hid, List.getElem?_set_ne (Ne.symm hid)]

/-- What is in a place after a new one has been added. -/
theorem errand_append {place : Option Errand}
    (h : s'.errands = s.errands ++ [place]) :
    s'.errand? id' = if id' = s.errands.length then place else s.errand? id' := by
  rw [errand?, errand?, h]
  by_cases hid : id' = s.errands.length
  · rw [if_pos hid, hid, List.getElem?_concat_length]
    rfl
  · rw [if_neg hid]
    by_cases hlt : id' < s.errands.length
    · rw [List.getElem?_append_left hlt]
    · have hbeyond : (s.errands ++ [place]).length ≤ id' := by
        rw [List.length_append, List.length_singleton]
        omega
      rw [List.getElem?_eq_none hbeyond, List.getElem?_eq_none (by omega)]

/-- A call that is under way after another one was made is that one, or was
    under way already. -/
theorem errand_call {new : Errand} (h : s'.errands = s.errands ++ [some new])
    (he : s'.errand? id = some e) :
    (id = s.errands.length ∧ e = new) ∨ (id ≠ s.errands.length ∧ s.errand? id = some e) := by
  rw [errand_append h] at he
  by_cases hid : id = s.errands.length
  · rw [if_pos hid, Option.some.injEq] at he
    exact Or.inl ⟨hid, he.symm⟩
  · rw [if_neg hid] at he
    exact Or.inr ⟨hid, he⟩

theorem act_turn (hid : s.errand? id = some e) : s.act (.turn id) = s.turn id e := by
  simp only [act, hid]

/-- What is in the place of a call after its turn. -/
theorem errand_turn_self (hid : s.errand? id = some e) : (s.turn id e).errand? id =
    (e.call.after (e.call.step id s.bus).1).map ({ e with call := · }) := by
  rw [errand_set (lt_of_errand hid) rfl, if_pos rfl]

/-- What is in the other places. -/
theorem errand_turn_of_ne (hid : s.errand? id = some e) (hne : id' ≠ id) :
    (s.turn id e).errand? id' = s.errand? id' := by
  rw [errand_set (lt_of_errand hid) rfl, if_neg hne]

/-- A call that is under way after a turn of one is that one, or was under way
    already. -/
theorem errand_turn (hid : s.errand? id = some e) (h : (s.turn id e).errand? id' = some e') :
    (id' = id ∧ ∃ c', e.call.after (e.call.step id s.bus).1 = some c' ∧
      e' = { e with call := c' }) ∨ (id' ≠ id ∧ s.errand? id' = some e') := by
  rw [errand_set (lt_of_errand hid) rfl] at h
  by_cases heq : id' = id
  · rw [if_pos heq, Option.map_eq_some_iff] at h
    rcases h with ⟨c', hc', he'⟩
    exact Or.inl ⟨heq, c', hc', he'.symm⟩
  · rw [if_neg heq] at h
    exact Or.inr ⟨heq, h⟩

/-- A call that is under way after one was dropped is another one. -/
theorem errand_drop (hid : s.errand? id = some e) (h : (s.drop id).errand? id' = some e') :
    id' ≠ id ∧ s.errand? id' = some e' := by
  rw [errand_set (lt_of_errand hid) rfl] at h
  by_cases heq : id' = id
  · simp only [if_pos heq, reduceCtorEq] at h
  · rw [if_neg heq] at h
    exact ⟨heq, h⟩

theorem errand_start (config : Link.Config) : (start config).errand? id ≠ some e := by
  simp only [errand?, start, List.getElem?_nil, Option.join_none, ne_eq, reduceCtorEq,
    not_false_eq_true]

/-- A client that is free has no calls under way that matter. -/
theorem but_of_free {but : Task → Bool} (hfree : s.isFree client but = true)
    (h : s.errand? id = some e) (hclient : e.client = client) : but e.call.task = true := by
  have hplace := List.all_eq_true.mp hfree _ (mem_of_errand h)
  rw [Option.all_some, hclient] at hplace
  simpa only [ne_eq, not_true_eq_false, decide_false, Bool.false_or] using hplace

/-! ### The invariant -/

/-- What drains have seen to stays seen to while the link and what was sent
    stay as they are. -/
theorem ahead_of_eq {c : Call} {bus bus' : Bus} (h : c.Ahead bus) (hlink : bus'.link = bus.link)
    (hsent : bus'.wire.sent = bus.wire.sent) : c.Ahead bus' := by
  intro d hd
  have htraffic : bus'.traffic = bus.traffic := by
    rw [Bus.traffic, Bus.traffic, hlink, hsent]
  rw [htraffic]
  exact (h d hd).of_same (.of_eq hsent (by rw [hlink])) htraffic

theorem kept_start (config : Link.Config) : Kept (start config) where
  holder := fun _ _ he => absurd he (errand_start config)
  client := fun _ _ he => absurd he (errand_start config)
  alone := fun _ _ _ _ he => absurd he (errand_start config)
  sound := fun _ _ he => absurd he (errand_start config)
  ahead := fun _ _ he => absurd he (errand_start config)

theorem kept_create (h : Kept s) (c : Client) : Kept { s with clients := s.clients ++ [c] } := by
  refine ⟨h.holder, ?_, h.alone, h.sound, h.ahead⟩
  intro id e he
  have hclient := h.client id e he
  rw [List.getElem?_append_left (List.getElem?_eq_some_iff.mp hclient).1]
  exact hclient

/-- Only a client without calls buffers anything, so no call has to learn of
    it. -/
theorem kept_write (h : Kept s) (hfree : s.isFree client (fun _ => false) = true) (c : Client)
    (log : List Event) : Kept { s with clients := s.clients.set client c, log } := by
  refine ⟨h.holder, ?_, h.alone, h.sound, h.ahead⟩
  intro id e he
  have hne : client ≠ e.client := by
    intro hclient
    exact Bool.false_ne_true (but_of_free hfree he hclient.symm)
  simp only []
  rw [List.getElem?_set_ne hne]
  exact h.client id e he

/-- A call that begins does not hold anything, and shares its client only
    where that is no matter. -/
theorem kept_call (h : Kept s) {c : Client} {task : Task} (hc : s.clients[client]? = some c)
    (hfree : s.isFree client (fun other => other.isShared && task.isShared) = true)
    (limit : Option Duration) (log : List Event) :
    Kept { s with
      errands := s.errands ++ [some { client, call := s.callOf c task limit }]
      log } := by
  refine ⟨?_, ?_, ?_, ?_, ?_⟩
  · intro id e he hstage
    rcases errand_call rfl he with ⟨_, hnew⟩ | ⟨_, hold⟩
    · -- The call that is new has not begun, so it claims nothing of the lock.
      rw [hnew] at hstage
      exact absurd hstage Bool.false_ne_true
    · exact h.holder id e hold hstage
  · intro id e he
    rcases errand_call rfl he with ⟨_, hnew⟩ | ⟨_, hold⟩
    · rw [hnew]
      exact hc
    · exact h.client id e hold
  · intro id id' e e' he he' hclient hne
    -- Two calls of the client are both old, or the guard has let the new one in.
    rcases errand_call rfl he with ⟨hid, hnew⟩ | ⟨_, hold⟩
    · rcases errand_call rfl he' with ⟨hid', hnew'⟩ | ⟨_, hold'⟩
      · exact absurd (hid.trans hid'.symm) hne
      · have hboth := but_of_free hfree hold' (by rw [← hclient, hnew])
        rw [Bool.and_eq_true] at hboth
        rw [hnew]
        exact ⟨hboth.2, hboth.1⟩
    · rcases errand_call rfl he' with ⟨hid', hnew'⟩ | ⟨_, hold'⟩
      · have hboth := but_of_free hfree hold (by rw [hclient, hnew'])
        rw [Bool.and_eq_true] at hboth
        rw [hnew']
        exact hboth
      · exact h.alone id id' e e' hold hold' hclient hne
  · intro id e he
    rcases errand_call rfl he with ⟨_, hnew⟩ | ⟨_, hold⟩
    · rw [hnew]
      trivial
    · exact h.sound id e hold
  · intro id e he
    rcases errand_call rfl he with ⟨_, hnew⟩ | ⟨_, hold⟩
    · rw [hnew]
      intro d hd
      simp only [callOf, reduceCtorEq] at hd
    · exact h.ahead id e hold

/-- While another call is in the middle of an exchange, a turn leaves the link
    and the wire alone. -/
theorem Kept.apart (h : Kept s) (hid : s.errand? id = some e)
    (hholder : s.bus.lock.holder ≠ some id) :
    (s.turn id e).bus.link = s.bus.link ∧ (s.turn id e).bus.wire = s.bus.wire := by
  have hgoes := Call.step_goes (h.sound id e hid) id s.bus
  exact hgoes.apart hholder fun hstage => hholder (h.holder id e hid hstage)

theorem kept_turn (h : Kept s) (hid : s.errand? id = some e) : Kept (s.turn id e) := by
  have hgoes := Call.step_goes (h.sound id e hid) id s.bus
  have hlt : e.client < s.clients.length :=
    (List.getElem?_eq_some_iff.mp (h.client id e hid)).1
  refine ⟨?_, ?_, ?_, ?_, ?_⟩
  · intro id' e' he' hstage
    -- Each claim is one about the call that takes the turn, or about another one.
    rcases errand_turn hid he' with ⟨heq, c', hafter, hnew⟩ | ⟨hne, hold⟩
    · rw [hnew] at hstage
      rw [heq]
      exact hgoes.holder (h.holder id e hid) hafter hstage
    · exact hgoes.holder_of_ne hne (h.holder id' e' hold hstage) (h.holder id e hid)
  · intro id' e' he'
    rcases errand_turn hid he' with ⟨heq, c', hafter, hnew⟩ | ⟨hne, hold⟩
    · rw [hnew, hgoes.again hafter]
      exact List.getElem?_set_self hlt
    · have hclient := h.client id' e' hold
      simp only [turn]
      by_cases hsame : e.client = e'.client
      · -- Two calls of one client leave it as it is.
        have hshared := (h.alone id id' e e' hid hold hsame (Ne.symm hne)).1
        have hcall := h.client id e hid
        rw [hgoes.shared hshared, ← hsame, List.getElem?_set_self hlt, ← hcall, hsame]
        exact hclient
      · rw [List.getElem?_set_ne hsame]
        exact hclient
  · intro id₁ id₂ e₁ e₂ he₁ he₂ hclient hne
    rcases errand_turn hid he₁ with ⟨heq₁, c₁, hafter₁, hnew₁⟩ | ⟨hne₁, hold₁⟩
    · rcases errand_turn hid he₂ with ⟨heq₂, c₂, hafter₂, hnew₂⟩ | ⟨hne₂, hold₂⟩
      · exact absurd (heq₁.trans heq₂.symm) hne
      · rw [hnew₁] at hclient
        rw [hnew₁, hgoes.again hafter₁]
        exact h.alone id id₂ e e₂ hid hold₂ hclient (Ne.symm hne₂)
    · rcases errand_turn hid he₂ with ⟨heq₂, c₂, hafter₂, hnew₂⟩ | ⟨hne₂, hold₂⟩
      · rw [hnew₂] at hclient
        rw [hnew₂, hgoes.again hafter₂]
        exact h.alone id₁ id e₁ e hold₁ hid hclient hne₁
      · exact h.alone id₁ id₂ e₁ e₂ hold₁ hold₂ hclient hne
  · intro id' e' he'
    rcases errand_turn hid he' with ⟨heq, c', hafter, hnew⟩ | ⟨hne, hold⟩
    · rw [hnew]
      exact hgoes.sound (h.sound id e hid) hafter
    · exact h.sound id' e' hold
  · intro id' e' he'
    rcases errand_turn hid he' with ⟨heq, c', hafter, hnew⟩ | ⟨hne, hold⟩
    · rw [hnew]
      exact hgoes.ahead (h.ahead id e hid) hafter
    · intro d hd
      -- A call that is sending holds the lock, so this turn was not its own.
      have hholder := h.holder id' e' hold (by rw [hd]; rfl)
      have hapart := h.apart hid (by rw [hholder, ne_eq, Option.some.injEq]; exact hne)
      exact ahead_of_eq (h.ahead id' e' hold) hapart.1 (by rw [hapart.2]) d hd

theorem kept_drop (h : Kept s) (hid : s.errand? id = some e) : Kept (s.drop id) := by
  refine ⟨?_, ?_, ?_, ?_, ?_⟩
  · intro id' e' he' hstage
    rcases errand_drop hid he' with ⟨hne, hold⟩
    exact Call.leave_of_ne hne (h.holder id' e' hold hstage)
  · intro id' e' he'
    exact h.client id' e' (errand_drop hid he').2
  · intro id₁ id₂ e₁ e₂ he₁ he₂
    exact h.alone id₁ id₂ e₁ e₂ (errand_drop hid he₁).2 (errand_drop hid he₂).2
  · intro id' e' he'
    exact h.sound id' e' (errand_drop hid he').2
  · intro id' e' he'
    exact ahead_of_eq (h.ahead id' e' (errand_drop hid he').2) rfl rfl

/-- Whatever an action comes to keeps the invariant. -/
theorem Does.kept {a : Action} (hdoes : s.Does a s') (h : Kept s) : Kept s' := by
  cases hdoes with
  | refuse => exact h
  | create hcreate => exact kept_create h _
  | write hc hfree => exact kept_write h hfree _ _
  | call hc hfree => exact kept_call h hc hfree _ _
  | turn hid => exact kept_turn h hid
  | drop hid => exact kept_drop h hid
  | outside =>
      refine ⟨h.holder, h.client, h.alone, h.sound, ?_⟩
      intro id e he
      exact ahead_of_eq (h.ahead id e he) rfl rfl

/-- Every run keeps the invariant, by induction on what is done. -/
theorem run_kept (h : Kept s) (actions : List Action) : Kept (s.run actions) := by
  induction actions generalizing s with
  | nil => exact h
  | cons a actions ih => exact ih ((act_does s a).kept h)

/-- No action changes whom a client talks to. -/
theorem Does.persists {a : Action} (hdoes : s.Does a s') (h : Kept s) {c : Client}
    (hc : s.clients[client]? = some c) :
    ∃ c', s'.clients[client]? = some c' ∧ c'.destination = c.destination ∧
      c'.config = c.config := by
  have hlt : client < s.clients.length := (List.getElem?_eq_some_iff.mp hc).1
  cases hdoes with
  | refuse => exact ⟨c, hc, rfl, rfl⟩
  | create hcreate =>
      rw [List.getElem?_append_left hlt]
      exact ⟨c, hc, rfl, rfl⟩
  | @write who bytes c' hc' hfree =>
      simp only []
      -- A write changes the buffer of one client, and neither its device nor its channel.
      by_cases hwho : who = client
      · rw [hwho, hc, Option.some.injEq] at hc'
        rw [hwho, List.getElem?_set_self hlt, ← hc']
        exact ⟨_, rfl, rfl, rfl⟩
      · rw [List.getElem?_set_ne hwho]
        exact ⟨c, hc, rfl, rfl⟩
  | call hc' hfree => exact ⟨c, hc, rfl, rfl⟩
  | @turn id e hid =>
      -- A turn puts its own client back, and no other.
      simp only [Session.turn]
      by_cases hwho : e.client = client
      · have hcall := h.client id e hid
        rw [hwho, hc, Option.some.injEq] at hcall
        rw [hwho, List.getElem?_set_self hlt, hcall]
        exact ⟨_, rfl, (Call.step_goes (h.sound id e hid) id s.bus).client⟩
      · rw [List.getElem?_set_ne hwho]
        exact ⟨c, hc, rfl, rfl⟩
  | drop hid => exact ⟨c, hc, rfl, rfl⟩
  | outside => exact ⟨c, hc, rfl, rfl⟩

/-! ### The log -/

/-- What a turn of a call leaves in the log. -/
def noted (s : Session) (id : Nat) (e : Errand) : Note where
  client := e.client
  task := e.call.task
  entered := if e.call.enters id s.bus then some e.call.client else none
  heard := e.call.heard s.bus
  ended := Call.ended (e.call.step id s.bus).1

theorem turn_log (s : Session) (id : Nat) (e : Errand) :
    (s.turn id e).log = s.log ++ [.turned id (s.noted id e)] := rfl

/-- An action leaves the log as it was, or adds one event. -/
theorem Does.log {a : Action} (hdoes : s.Does a s') :
    s'.log = s.log ∨ ∃ event, s'.log = s.log ++ [event] ∧
      ∀ id note, event = .turned id note →
        ∃ e, s.errand? id = some e ∧ note = s.noted id e := by
  cases hdoes with
  | refuse => exact Or.inl rfl
  | create hcreate => exact Or.inl rfl
  | write hc hfree => exact Or.inr ⟨_, rfl, fun id note h => absurd h Event.noConfusion⟩
  | call hc hfree => exact Or.inr ⟨_, rfl, fun id note h => absurd h Event.noConfusion⟩
  | turn hid =>
      refine Or.inr ⟨_, turn_log _ _ _, fun id' note h => ?_⟩
      rw [Event.turned.injEq] at h
      rw [← h.1, ← h.2]
      exact ⟨_, hid, rfl⟩
  | drop hid => exact Or.inr ⟨_, rfl, fun id note h => absurd h Event.noConfusion⟩
  | outside => exact Or.inl rfl

/-- A turn that is in the log has been there, or it is that of a call under
    way. -/
theorem Does.noted {a : Action} (hdoes : s.Does a s') {note : Note}
    (hmem : .turned id note ∈ s'.log) :
    .turned id note ∈ s.log ∨ ∃ e, s.errand? id = some e ∧ note = s.noted id e := by
  rcases hdoes.log with hlog | ⟨event, hlog, hturned⟩
  · rw [hlog] at hmem
    exact Or.inl hmem
  · rw [hlog] at hmem
    rcases List.mem_append.mp hmem with hold | hnew
    · exact Or.inl hold
    · exact Or.inr (hturned id note (List.mem_singleton.mp hnew).symm)

/-- What holds of every turn of a call under way holds of all turns in the log of
    a run, if it holds of those at its start. By induction on what is done. -/
theorem run_noted {P : Note → Prop}
    (hturn : ∀ s id e, Kept s → s.errand? id = some e → P (s.noted id e)) (hkept : Kept s)
    (h : ∀ id note, .turned id note ∈ s.log → P note) (actions : List Action) :
    ∀ id note, .turned id note ∈ (s.run actions).log → P note := by
  induction actions generalizing s with
  | nil => exact h
  | cons a actions ih =>
      refine ih ((act_does s a).kept hkept) fun id note hmem => ?_
      rcases (act_does s a).noted hmem with hold | ⟨e, hid, hnote⟩
      · exact h id note hold
      · rw [hnote]
        exact hturn s id e hkept hid

end Session

end Multidrop
