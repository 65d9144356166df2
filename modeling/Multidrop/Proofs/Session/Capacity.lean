import Multidrop.Proofs.Call.Failing
import Multidrop.Proofs.Client.Capacity
import Multidrop.Proofs.Session.Replies

/-!
# What Clients Can Send

Every client of a session was let in, and the link it talks over has an
address. So whatever a client buffers is queued as a whole by its drain, and
so is its poll: a drain or a read that fails does so because of what the wire
does and brings, or because its time is up, and never because of the size or
the addresses of a frame.

No client has a full chunk that is too long for a frame. Where the size of the
chunk does not even fit in 64 bits, though, there is neither a client nor a
refusal.

## Main definitions

* `Origin`: Where a client has come from.
* `Able`: The invariant of every run.

## Theorems

* `Does.able`, `run_able`: Every action and every run keeps the invariant.
* `clients_can_send`: Which clients are let in, and what they can send.
* `overflowing_chunk_unanswered`: A chunk that is too long, and not refused.
-/

namespace Multidrop

namespace Session

/-- A call fails because of what the wire does and brings, or because its time
    is up. -/
def Note.FailsOutside (note : Note) : Prop :=
  ∀ e, note.ended = some (.error e) → e.isOfWire = true ∨ ∃ limit, e = .timeout limit

/-- The invariant of every run: the link has an address, its clients were let
    in, and none of them has failed to send. -/
structure Able (s : Session) : Prop where
  kept : s.Kept
  source : s.bus.link.config.source ≤ Frame.broadcast
  clients : ∀ (client : Nat) (c : Client), s.clients[client]? = some c →
    c.destination ≤ Frame.broadcast ∧ c.config.FullChunkFits
  reception : ∀ id e, s.errand? id = some e → e.call.reception.Sound s.bus.link.config.limits
  noted : ∀ id note, .turned id note ∈ s.log →
    note.task = .drain ∨ note.task.polls = true → note.FailsOutside

variable {s s' : Session} {client id : Nat} {c : Client} {e : Errand}

/-- A client that is there after an action is new, or was there and talked to
    whom it talks to now. -/
theorem Does.origin {a : Action} (hdoes : s.Does a s') (hkept : Kept s)
    (hc : s'.clients[client]? = some c) :
    (∃ c₀, s.clients[client]? = some c₀ ∧ c.destination = c₀.destination ∧
      c.config = c₀.config) ∨
    ∃ destination config, Client.create destination config = .ok c := by
  cases hbefore : s.clients[client]? with
  | some c₀ =>
      rcases hdoes.persists hkept hbefore with ⟨c', hc', hdestination, hconfig⟩
      rw [hc, Option.some.injEq] at hc'
      rw [hc']
      exact Or.inl ⟨c₀, rfl, hdestination, hconfig⟩
  | none =>
      -- Only a client that is let in takes a place that was free.
      have hfree := List.getElem?_eq_none_iff.mp hbefore
      have hplace := (List.getElem?_eq_some_iff.mp hc).1
      cases hdoes with
      | refuse => exact absurd hplace (Nat.not_lt.mpr hfree)
      | @create destination config new hcreate =>
          rw [List.getElem?_append_right hfree] at hc
          rw [List.mem_singleton.mp (List.mem_of_getElem? hc)]
          exact Or.inr ⟨destination, config, hcreate⟩
      | write hwho hfree' =>
          rw [List.length_set] at hplace
          exact absurd hplace (Nat.not_lt.mpr hfree)
      | call hwho hfree' => exact absurd hplace (Nat.not_lt.mpr hfree)
      | turn hid =>
          simp only [Session.turn, List.length_set] at hplace
          exact absurd hplace (Nat.not_lt.mpr hfree)
      | drop hid => exact absurd hplace (Nat.not_lt.mpr hfree)
      | outside => exact absurd hplace (Nat.not_lt.mpr hfree)

theorem able_start {config : Link.Config} (hsource : config.source ≤ Frame.broadcast) :
    Able (start config) where
  kept := kept_start config
  source := hsource
  clients := fun _ _ hc => by simp only [start, List.getElem?_nil, reduceCtorEq] at hc
  reception := fun _ _ he => absurd he (errand_start config)
  noted := fun _ _ hmem => absurd hmem List.not_mem_nil

/-- A drain or a poll fails as the wire makes it fail. -/
theorem Able.failsOutside (h : Able s) (hid : s.errand? id = some e)
    (htask : e.call.task = .drain ∨ e.call.task.polls = true) :
    (s.noted id e).FailsOutside := by
  intro error hended
  have hclient := h.clients e.client e.call.client (h.kept.client id e hid)
  have hframes := Client.frames_fit h.source hclient.1 hclient.2 htask
  -- Neither a request that could not be built nor a call that takes frames as they come.
  have hrefuse : ∀ cause, e.call.task ≠ .refuse cause := by
    intro cause hc
    rw [hc] at htask
    exact htask.elim (fun h => absurd h nofun) fun h => absurd h Bool.false_ne_true
  have hreceive : ∀ source, e.call.task ≠ .receive source := by
    intro source hc
    rw [hc] at htask
    exact htask.elim (fun h => absurd h nofun) fun h => absurd h Bool.false_ne_true
  rcases hstep : e.call.step id s.bus with ⟨_ | _ | ⟨after, result⟩, bus'⟩
  · simp only [Session.noted, hstep, Call.ended, reduceCtorEq] at hended
  · simp only [Session.noted, hstep, Call.ended, reduceCtorEq] at hended
  · simp only [Session.noted, hstep, Call.ended, Option.some.injEq] at hended
    rw [hended] at hstep
    refine (Call.step_wire hrefuse hreceive (h.reception id e hid) hframes hstep).imp_right ?_
    rintro ⟨limit, herror, -, -⟩
    exact ⟨limit, herror⟩

/-- What an action adds to the log of a run keeps the invariant. -/
theorem Able.noted_act {a : Action} (h : Able s) (hdoes : s.Does a s') {note : Note}
    (hmem : .turned id note ∈ s'.log) (htask : note.task = .drain ∨ note.task.polls = true) :
    note.FailsOutside := by
  rcases hdoes.noted hmem with hold | ⟨e, hid, hnote⟩
  · exact h.noted id note hold htask
  · rw [hnote] at htask ⊢
    exact h.failsOutside hid htask

/-- Whatever an action comes to keeps the invariant. -/
theorem Does.able {a : Action} (hdoes : s.Does a s') (h : Able s) : Able s' := by
  have hconfig := hdoes.link_config h.kept
  refine ⟨hdoes.kept h.kept, ?_, ?_, ?_, fun id note hmem => h.noted_act hdoes hmem⟩
  · rw [hconfig]
    exact h.source
  · intro client c hc
    rcases hdoes.origin h.kept hc with
      ⟨c₀, hc₀, hdestination, hsame⟩ | ⟨destination, config, hcreate⟩
    · rw [hdestination, hsame]
      exact h.clients client c₀ hc₀
    · -- A client that is let in has been checked for its full chunks.
      have haccepted := (Client.create_iff destination config).mp ⟨c, hcreate⟩
      rw [Client.create_ok hcreate]
      exact haccepted
  · rw [hconfig]
    intro id e he
    cases hdoes with
    | refuse => exact h.reception id e he
    | create hcreate => exact h.reception id e he
    | write hc hfree => exact h.reception id e he
    | call hc hfree =>
        -- A call that is new receives nothing yet, and a turn keeps its reception sound.
        rcases errand_call rfl he with ⟨_, hnew⟩ | ⟨_, hold⟩
        · rw [hnew]
          exact Reception.sound_start _
        · exact h.reception id e hold
    | turn hid =>
        rcases errand_turn hid he with ⟨heq, c', hafter, hnew⟩ | ⟨_, hold⟩
        · rw [hnew]
          exact Call.step_reception (h.kept.sound _ _ hid) (h.reception _ _ hid) _ hafter
        · exact h.reception id e hold
    | drop hid => exact h.reception id e (errand_drop hid he).2
    | outside => exact h.reception id e he

/-- Every run keeps the invariant, by induction on what is done. -/
theorem run_able (h : Able s) (actions : List Action) : Able (s.run actions) := by
  induction actions generalizing s with
  | nil => exact h
  | cons a actions ih => exact ih ((act_does s a).able h)

/-- A client is let in exactly if its device has an address and a full chunk fits in
    a frame. Whoever asks for another one is told why there is none, but for one
    case: where the size of a full chunk does not fit in 64 bits, there is no answer.

    On any link that was let in, and at any moment of any run, every client can
    send: whatever is in its buffer is queued as a whole, and so is a poll. None of
    its drains, polls and reads has failed because a frame was too large or had no
    address. -/
theorem clients_can_send (destination : UInt8) (chunks : Client.Config) (config : Link.Config)
    (actions : List Action) :
    ((∃ c, Client.create destination chunks = .ok c) ↔
      destination ≤ Frame.broadcast ∧ chunks.FullChunkFits) ∧
    (Client.create destination chunks = .error .overflow ↔
      destination ≤ Frame.broadcast ∧ chunks.Overflows) ∧
    Client.Creates destination chunks (Client.create destination chunks) ∧
    ∀ link, Link.create config = .ok link →
      ∀ (client : Nat) (c : Client),
        let s := (start config).run actions
        s.clients[client]? = some c →
          c.Carries s.bus.link ∧
          ∀ id note e, .turned id note ∈ s.log → note.client = client →
            note.task = .drain ∨ note.task.polls = true → note.ended = some (.error e) →
              (∀ size most, e ≠ .frame (.payloadTooLarge size most)) ∧
              ∀ address, e ≠ .frame (.invalidAddress address) := by
  refine ⟨Client.create_iff destination chunks, Client.create_overflow_iff destination chunks,
    Client.create_creates destination chunks, ?_⟩
  intro link hlink client c s hc
  have hsource : config.source ≤ Frame.broadcast := by
    rw [Link.create] at hlink
    split at hlink
    · exact absurd hlink nofun
    · rename_i hsource
      exact UInt8.not_lt.mp hsource
  -- All clients of a session were let in by that check.
  have hable : Able s := run_able (able_start hsource) actions
  rcases hable.clients client c hc with ⟨hdestination, hfits⟩
  refine ⟨Client.carries_of_fits hable.source hdestination hfits, ?_⟩
  intro id note e hmem _ htask hended
  -- The two errors in question are neither of the wire nor of time.
  have herror := hable.noted id note hmem htask e hended
  refine ⟨fun size most he => ?_, fun address he => ?_⟩
  · rw [he] at herror
    exact herror.elim (fun h => absurd h Bool.false_ne_true) fun ⟨_, h⟩ => absurd h nofun
  · rw [he] at herror
    exact herror.elim (fun h => absurd h Bool.false_ne_true) fun ⟨_, h⟩ => absurd h nofun

/-- A client that sends 300 bytes in three frames, and whose poll fails because the
    wire breaks. -/
theorem clients_can_send_three_chunks :
    let broken : Transport.Fault := { kind := .brokenPipe }
    let s := (start {}).run ([.create 5 {}, .call 0 .poll none] ++ List.replicate 6 (.turn 0) ++
      [.outside 0 { arrivals := [(0, .fault broken)] }, .turn 0])
    let c : Client := { destination := 5 }
    let full : Client := { c with writeBuffer := List.replicate 300 0 }
    s.clients[0]? = some c ∧ (Task.frames s.bus.link full .drain).length = 3 ∧
      full.queueWrites s.bus.link =
        (.ok (), c, s.bus.link.load (Task.frames s.bus.link full .drain)) ∧
      ∃ note, .turned 0 note ∈ s.log ∧ note.task = .poll ∧
        note.ended = some (.error (.transport (.io broken))) ∧
        ∀ size most, Link.Error.transport (.io broken) ≠ .frame (.payloadTooLarge size most) := by
  intro broken s c full
  have hc : s.clients[0]? = some c := by decide +kernel
  -- The poll fails, and by the wire: the invariant allows for that.
  let note : Note := {
    client := 0
    task := .poll
    entered := none
    heard := some (.error (.transport (.io broken)))
    ended := some (.error (.transport (.io broken))) }
  have hmem : .turned 0 note ∈ s.log := by decide +kernel
  rcases (clients_can_send 5 {} {} _).2.2.2 {} rfl 0 c hc with ⟨hcarries, hfails⟩
  refine ⟨hc, ?_, hcarries.writes (List.replicate 300 0), note, hmem, rfl, rfl, ?_⟩
  · decide +kernel
  · exact (hfails 0 note _ hmem rfl (Or.inr rfl) rfl).1

/-- The chunk size is the largest there is. No frame holds such a chunk, and still
    nobody is told so: the sum that says how large the frame would be is not
    finished. -/
theorem overflowing_chunk_unanswered :
    let config : Client.Config := { maxChunk := 0xffffffffffffffff }
    ¬ config.FullChunkFits ∧ Client.create 5 config = .error .overflow ∧
      ∀ e, Client.create 5 config ≠ .error (.refused e) := by
  intro config
  have hoverflows : config.Overflows := by decide +kernel
  have hcreate : Client.create 5 config = .error .overflow := by decide +kernel
  refine ⟨hoverflows.not_fullChunkFits, hcreate, fun e he => ?_⟩
  rw [hcreate] at he
  exact absurd (Except.error.inj he) nofun

end Session

end Multidrop
