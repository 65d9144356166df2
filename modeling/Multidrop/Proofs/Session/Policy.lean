import Multidrop.Proofs.Call.Query
import Multidrop.Proofs.Link.Policy
import Multidrop.Proofs.Session.Exchanges
import Multidrop.Proofs.Session.Incoming

/-!
# Sessions That Enforce Checksums

Where checksums are enforced, a frame that is delivered to anyone came whole and
with the checksum it should have. All that a client buffers of its stream, and
every reply that says anything, is taken from such frames. It does not matter
what is on the wire, what the clients do, or what becomes of their calls.

## Main definitions

* `Frame.Received.Proven`: A frame came with the checksum it should have.
* `Event.delivered`: The frame that an event brings to a stream.
* `Event.Proven`: What is heard and replied at an event is from such a frame.

## Theorems

* `Reception.step_proven`: A frame that is delivered came with its checksum.
* `run_strict`: Every run keeps to such frames.
* `policy_filters`: What the policy decides, and what it keeps out.
-/

namespace Multidrop

/-- A frame came whole, and with the checksum it should have. -/
def Frame.Received.Proven (limits : Frame.Limits) (f : Frame.Received) : Prop :=
  ∃ p : Frame.Form, p.Accepted limits ∧ p.crc = p.computed ∧ f = p.frame

/-- Where checksums are enforced, a frame that is delivered came with its
    checksum. -/
theorem Reception.step_proven {onlyFrom : Option UInt8} {r : Reception} {bus bus' : Bus}
    {f : Frame.Received} (henforce : bus.link.config.limits.crcPolicy = .enforce)
    (h : r.step onlyFrom bus = (.over (.ok (some f)), bus')) :
    f.Proven bus.link.config.limits := by
  rcases step_closes h with ⟨bytes, wire, hclose⟩
  have hdecode := (close_some hclose).1
  simp only at hdecode
  cases Frame.decodes bus.link.config.limits bytes with
  | whole p rest hbytes haccepted =>
      rw [hbytes, Frame.decode_form haccepted, Frame.Form.verdict, henforce] at hdecode
      -- A strict reader delivers a form only if its checksum is the one computed.
      by_cases hcrc : p.crc = p.computed
      · simp only [if_pos hcrc, Except.map, Except.ok.injEq, Option.some.injEq] at hdecode
        exact ⟨p, haccepted, hcrc, hdecode.symm⟩
      · simp only [if_neg hcrc, Except.map, reduceCtorEq] at hdecode
  | incomplete hincomplete =>
      rw [Frame.decode_incomplete hincomplete] at hdecode
      cases hdecode
  | refused e hrefused =>
      rw [Frame.decode_refused hrefused] at hdecode
      cases hdecode

theorem Call.heard_proven {c : Call} {bus : Bus} {f : Frame.Received}
    (henforce : bus.link.config.limits.crcPolicy = .enforce)
    (h : c.heard bus = some (.ok (some f))) : f.Proven bus.link.config.limits := by
  unfold heard at h
  split at h
  · rename_i deadline early taken r hstage
    rcases hstep : r.step c.onlyFrom bus with ⟨_ | _ | result, bus'⟩
    · rw [hstep] at h
      exact absurd h nofun
    · rw [hstep] at h
      exact absurd h nofun
    · rw [hstep, Option.some.injEq] at h
      rw [h] at hstep
      exact Reception.step_proven henforce hstep
  · exact absurd h nofun

namespace Session

/-- The frame that an event brings to the stream of a client from a device. -/
def Event.delivered (client : Nat) (destination : UInt8) : Event → Option Frame.Received
  | .turned _ note =>
    match note.heard with
    | some (.ok (some f)) =>
      if note.client = client ∧ note.task.polls ∧ f.source = destination then some f else none
    | _ => none
  | _ => none

/-- What is heard at an event came with its checksum, and a reply that says
    anything says what a frame says that was heard. -/
def Event.Proven (limits : Frame.Limits) : Event → Prop
  | .turned _ note =>
    (∀ f, note.heard = some (.ok (some f)) → f.Proven limits) ∧
      ∀ reply, note.ended = some (.ok (.reply reply)) → reply = {} ∨
        ∃ f, note.heard = some (.ok (some f)) ∧ Register.Reply.parse f.payload = .ok reply
  | _ => True

/-- The invariant of every run in which checksums are enforced. -/
structure Strict (limits : Frame.Limits) (s : Session) : Prop where
  kept : s.Kept
  config : s.bus.link.config.limits = limits
  proven : ∀ event ∈ s.log, event.Proven limits

variable {s s' : Session} {limits : Frame.Limits} {client : Nat} {destination : UInt8}
  {channel : UInt32} {event : Event}

/-- The stream bytes of an event are those of the frame that it brings. -/
theorem accepted_eq (client : Nat) (destination : UInt8) (channel : UInt32) (event : Event) :
    event.accepted client destination channel =
      ((event.delivered client destination).map fun f =>
        Stream.carried Subframe.toHost channel f.payload).getD [] := by
  cases event with
  | turned id note =>
      rw [Event.accepted, Event.delivered]
      rcases note.heard with _ | _ | _ | f
      · rfl
      · rfl
      · rfl
      · simp only
        split
        · rfl
        · rfl
  | _ => rfl

/-- A frame that an event brings was heard at it. -/
theorem Event.Proven.delivered (h : event.Proven limits) {f : Frame.Received}
    (hdelivered : event.delivered client destination = some f) : f.Proven limits := by
  cases event with
  | turned id note =>
      rw [Event.delivered] at hdelivered
      split at hdelivered
      · rename_i f' hheard
        split at hdelivered
        · rw [Option.some.injEq] at hdelivered
          rw [hdelivered] at hheard
          exact h.1 f hheard
        · exact absurd hdelivered nofun
      · exact absurd hdelivered nofun
  | _ => exact absurd hdelivered nofun

theorem flatMap_accepted (client : Nat) (destination : UInt8) (channel : UInt32)
    (log : List Event) :
    log.flatMap (Event.accepted client destination channel) =
      (log.filterMap (Event.delivered client destination)).flatMap fun f =>
        Stream.carried Subframe.toHost channel f.payload := by
  induction log with
  | nil => rfl
  | cons event log ih =>
      rw [List.flatMap_cons, accepted_eq, ih, List.filterMap_cons]
      cases event.delivered client destination with
      | none => rfl
      | some f => rfl

theorem strict_snoc (h : Strict limits s) (hkept : s'.Kept)
    (hconfig : s'.bus.link.config = s.bus.link.config) (hlog : s'.log = s.log ++ [event])
    (hproven : event.Proven limits) : Strict limits s' := by
  refine ⟨hkept, ?_, ?_⟩
  · rw [hconfig]
    exact h.config
  · intro other hother
    rw [hlog] at hother
    rcases List.mem_append.mp hother with hold | hnew
    · exact h.proven other hold
    · rw [List.mem_singleton.mp hnew]
      exact hproven

/-- Whatever an action comes to keeps to frames that came with their
    checksums. -/
theorem Does.strict {a : Action} (hdoes : s.Does a s') (henforce : limits.crcPolicy = .enforce)
    (h : Strict limits s) : Strict limits s' := by
  have hkept := hdoes.kept h.kept
  have hconfig := hdoes.link_config h.kept
  cases hdoes with
  | refuse => exact h
  | create hcreate => exact ⟨hkept, h.config, h.proven⟩
  | write hc hfree => exact strict_snoc h hkept hconfig rfl trivial
  | call hc hfree => exact strict_snoc h hkept hconfig rfl trivial
  | @turn id e hid =>
      rw [← h.config] at henforce
      refine strict_snoc h hkept hconfig rfl ⟨fun f hheard => ?_, fun reply hended => ?_⟩
      · rw [← h.config]
        exact Call.heard_proven henforce hheard
      · exact Call.reply_heard hended
  | drop hid => exact strict_snoc h hkept hconfig rfl trivial
  | outside => exact ⟨hkept, h.config, h.proven⟩

/-- Every run keeps to such frames, by induction on what is done. -/
theorem run_strict (henforce : limits.crcPolicy = .enforce) (h : Strict limits s)
    (actions : List Action) : Strict limits (s.run actions) := by
  induction actions generalizing s with
  | nil => exact h
  | cons a actions ih => exact ih ((act_does s a).strict henforce h)

theorem strict_start (config : Link.Config) : Strict config.limits (start config) where
  kept := kept_start config
  config := rfl
  proven := fun _ hevent => absurd hevent List.not_mem_nil

/-- Two listeners to the same stream, of which the first enforces checksums and
    the second ignores them, go in step, whatever is on the wire and whatever
    else happens on the bus: as many calls are answered, the call under way has
    come equally far, and the same is still to be read. Each call has taken the
    same bytes and come to the same, unless they are a whole frame whose checksum
    does not match. The first refuses such a frame, and the second delivers it,
    or drops it for its source or its size.

    So in every run of a session that enforces checksums, what the reads of a
    client have taken and what it has buffered are the stream bytes in frames
    that came with their checksums, and a reply that is not empty says what such
    a frame says. -/
theorem policy_filters :
    (∀ (bus : Bus) (calls : List (Option UInt8)) (actions : List Listener.Action)
      (statistics statistics' : Link.Statistics),
      let limits := (bus.under .enforce statistics).link.config.limits
      let stream := Arrivals.bytes
        (bus.wire.arrivals ++ actions.flatMap Listener.Action.brings)
      let l := (Listener.start (bus.under .enforce statistics) calls).run actions
      let l' := (Listener.start (bus.under .ignore statistics') calls).run actions
      l'.calls = l.calls ∧ l'.reception = l.reception ∧ l'.bus.wire = l.bus.wire ∧
      ∃ done, calls = done ++ l.calls ∧
        Filtered limits done stream l.results l'.results
          (l.reception.got ++ l.bus.wire.coming)) ∧
    ∀ (config : Link.Config) (actions : List Action), config.limits.crcPolicy = .enforce →
      let s := (start config).run actions
      (∀ client c, s.clients[client]? = some c →
        let frames := s.log.filterMap (Event.delivered client c.destination)
        (∀ f ∈ frames, f.Proven config.limits) ∧
        ∃ taken, Taken client s.log taken ∧
          frames.flatMap (fun f =>
            Stream.carried Subframe.toHost c.config.channel f.payload) =
              taken ++ c.readBuffer) ∧
      ∀ id note reply, .turned id note ∈ s.log → note.ended = some (.ok (.reply reply)) →
        reply = {} ∨ ∃ f, f.Proven config.limits ∧ note.heard = some (.ok (some f)) ∧
          Register.Reply.parse f.payload = .ok reply := by
  refine ⟨?_, ?_⟩
  · intro bus calls actions statistics statistics' limits stream l l'
    -- Two listeners, in step with each other.
    have hstep := Listener.run_inStep
      (Listener.inStep_start bus calls statistics statistics') actions
    rw [Wire.coming, ← Arrivals.bytes_append] at hstep
    rcases hstep.bus with ⟨counted, hbus⟩
    refine ⟨hstep.waiting, hstep.reception, ?_, hstep.filtered⟩
    rw [hbus]
    rfl
  · intro config actions henforce s
    have hstrict : Strict config.limits s := run_strict henforce (strict_start config) actions
    refine ⟨?_, ?_⟩
    · intro client c hclient frames
      refine ⟨fun f hf => ?_, ?_⟩
      · rcases List.mem_filterMap.mp hf with ⟨event, hevent, hdelivered⟩
        exact (hstrict.proven event hevent).delivered hdelivered
      · -- What the client has accepted is what its reads have taken and what it buffers.
        rcases run_balanced (kept_start config) (balanced_start config client) actions with
          ⟨taken, htaken, hbalance⟩
        refine ⟨taken, htaken, ?_⟩
        have haccepted := hbalance c.destination c.config.channel fun c' hc' => by
          rw [hclient, Option.some.injEq] at hc'
          rw [hc']
          exact ⟨rfl, rfl⟩
        rw [unread, hclient, flatMap_accepted] at haccepted
        exact haccepted
    · intro id note reply hmem hended
      -- A reply that is not empty was parsed from a frame that was heard.
      rcases hstrict.proven _ hmem with ⟨hheard, hreply⟩
      refine (hreply reply hended).imp_right ?_
      rintro ⟨f, hf, hparse⟩
      exact ⟨f, hheard f hf, hf, hparse⟩

/-- A frame with a wrong checksum is refused by the one listener and delivered
    to the other, and a reply that a query has got is what a frame with a right
    one says. -/
theorem policy_filters_one_mismatch :
    let f : Frame := { source := 5, destination := 0, payload := [0x41, 1, 3, 0x68, 0x69, 0x21] }
    let bus : Bus := { wire := { arrivals := [
      (0, .data 0x54 [0xab, 5, 0, 6, 0x41, 1, 3, 0x68, 0x69, 0x21, 0xf2, 0xcc])] } }
    let turns : List Listener.Action := List.replicate 3 .turn
    let l := (Listener.start (bus.under .enforce {}) [some 5]).run turns
    let l' := (Listener.start (bus.under .ignore {}) [some 5]).run turns
    let strict : Link.Config := { limits := { crcPolicy := .enforce } }
    let query : List Action :=
      [.create 5 {}, .call 0 (.query [.readSingle 0x10 .int8]) none] ++
      List.replicate 6 (.turn 0) ++
      [.outside 0 { arrivals := [
        (0, .data 0x54 [0xab, 5, 0, 3, 0x20, 0x10, 1, 0x5e, 0x36])] }] ++
      List.replicate 3 (.turn 0)
    let reply : Register.Reply :=
      { table := Register.Table.empty.insertAll [(0x10, .value (.int8 1))] }
    (∃ left, Filtered strict.limits [some 5] bus.wire.coming l.results l'.results left) ∧
      l.results = [.error (.frame (.crcMismatch 0xcdf2 0xccf2))] ∧
      l'.results = [.ok (some { f.arrived with crc := 0xccf2, crcOk := false })] ∧
      ∃ note, .turned 0 note ∈ ((start strict).run query).log ∧
        note.ended = some (.ok (.reply reply)) ∧
        ∃ g, Frame.Received.Proven strict.limits g ∧
          Register.Reply.parse g.payload = .ok reply := by
  intro f bus turns l l' strict query reply
  rcases policy_filters with ⟨hlisteners, hsessions⟩
  -- One frame with a wrong checksum, read under each of the policies.
  have hresults : l.results = [.error (.frame (.crcMismatch 0xcdf2 0xccf2))] ∧
      l'.results = [.ok (some { f.arrived with crc := 0xccf2, crcOk := false })] := by
    decide +kernel
  refine ⟨?_, hresults.1, hresults.2, ?_⟩
  · rcases hlisteners bus [some 5] turns {} {} with ⟨_, _, _, done, hcalls, hfiltered⟩
    have hdone : l.calls = [] := by decide +kernel
    have hnothing : turns.flatMap Listener.Action.brings = [] := by decide
    rw [hdone, List.append_nil] at hcalls
    rw [hnothing, List.append_nil, ← hcalls] at hfiltered
    exact ⟨_, hfiltered⟩
  · let s := (start strict).run query
    let g : Frame := { source := 5, destination := 0, payload := [0x20, 0x10, 1] }
    let note : Note := {
      client := 0
      task := .query [0x18, 0x10]
      entered := none
      heard := some (.ok (some g.arrived))
      ended := some (.ok (.reply reply)) }
    have hmem : .turned 0 note ∈ s.log := by decide +kernel
    have hne : reply ≠ {} := by decide
    rcases (hsessions strict query rfl).2 0 note reply hmem rfl with hnone | hframe
    · exact absurd hnone hne
    · rcases hframe with ⟨g', hproven, _, hparse⟩
      exact ⟨note, hmem, rfl, g', hproven, hparse⟩

end Session

end Multidrop
