import Multidrop.Proofs.Call.Group
import Multidrop.Proofs.Link.Cuts

/-!
# Calls However Bytes Are Cut

A turn of a call is a turn of a drain, a turn of a reception, or neither, and
what follows it has nothing to do with the wire. So calls come to the same on
buses that are alike, as long as they read the same at that turn.

Where they do not, one of the two has got more bytes at once, or is interrupted.
More bytes at once come to the same as the first one alone and then the others.
A call that is interrupted makes its read again.

## Main definitions

* `Moves`: Something that has nothing to do with the wire, and does not wait.
* `afterReception`, `afterDrain`, `afterWork`: What follows a turn.
* `takes`: Whether a turn takes something off the wire.
* `ReadsSame`: A call on two buses reads the same.

## Theorems

* `work_kinds`: A turn is one of the three.
* `step_leaves`: What a turn leaves on the wire.
* `step_same`: Calls that read the same come to the same.
* `step_split`: The first byte of an arrival can be read alone.
* `step_interrupted`: A call that is interrupted makes its read again.
-/

namespace Multidrop

namespace Call

variable {interrupts : Bool} {id : Nat} {c : Call} {b b' : Bus}

/-- Something that has nothing to do with the wire, and does not wait. -/
structure Moves (b : Bus) (f : Bus → Move) : Prop where
  offWire : b.OffWire f
  moves : (f b).1 ≠ .waiting

theorem goTo_moves (c : Call) (stage : Stage) (b : Bus) : Moves b (c.goTo stage) :=
  ⟨⟨.again { c with stage }, b.link, b.lock, rfl, fun _ => rfl⟩, nofun⟩

theorem finish_offWire (c : Call) (result : Result) (b : Bus) : b.OffWire (c.finish result) :=
  ⟨.over (c.client, result), b.link, b.lock, rfl, fun _ => rfl⟩

theorem handOn_moves (c : Call) (result : Result) (b : Bus) : Moves b (c.handOn result) :=
  ⟨⟨.over (c.client, result), b.link, b.lock.release, rfl, fun _ => rfl⟩, nofun⟩

theorem await_moves (c : Call) (deadline : Duration → Option Duration) (taken : Nat)
    (b : Bus) : Moves b fun bus => c.await (deadline bus.now) taken bus :=
  ⟨⟨.again { c with
      stage := .receiving (deadline b.now) ((deadline b.now).all (b.now < ·)) taken .start },
    b.link, b.lock, rfl, fun _ => rfl⟩, nofun⟩

theorem enqueue_offWire (id : Nat) (c : Call) (b : Bus) : b.OffWire (c.enqueue id) := by
  cases hbuffered : c.buffered.1 with
  | none =>
      refine ⟨.again { c with client := c.buffered.2, stage := .queued }, b.link,
        b.lock.request id, rfl, fun wire => ?_⟩
      simp only [enqueue, hbuffered, goTo]
  | some answer =>
      refine ⟨.over (c.buffered.2, .ok answer), b.link, b.lock, rfl, fun wire => ?_⟩
      simp only [enqueue, hbuffered, finish]

theorem start_offWire (id : Nat) (c : Call) (b : Bus) : b.OffWire (c.start id) := by
  have henqueue := enqueue_offWire id c b
  rcases c with ⟨task, client, started, limit, stage⟩
  cases task with
  | refuse cause => exact finish_offWire _ (.error (.register cause)) b
  | _ => exact henqueue

theorem sendFrame_offWire (c : Call) (frame : Link → Frame) (b : Bus) :
    b.OffWire fun bus => c.sendFrame (frame bus.link) bus := by
  cases hencode : (frame b.link).encode with
  | error e =>
      refine ⟨.over (c.client, .error (.frame e)), b.link, b.lock.release, rfl, fun wire => ?_⟩
      simp only [sendFrame, Link.queueFrame, hencode, handOn, finish]
  | ok bytes =>
      refine ⟨.again { c with stage := .sending .starting }, { b.link.queue bytes with
          statistics := { b.link.statistics with
            framesSent := b.link.statistics.framesSent + 1 } },
        b.lock, rfl, fun wire => ?_⟩
      simp only [sendFrame, Link.queueFrame, hencode, goTo]

theorem sendStream_offWire (c : Call) (b : Bus) : b.OffWire c.sendStream := by
  by_cases hfits : ∀ f ∈ Task.drain.frames b.link c.client, f.Fits
  · have hqueue := Client.queueWrites_of_fits c.client b.link b.link rfl hfits
    refine ⟨.again { c with
          client := { c.client with writeBuffer := [] }
          stage := .sending .starting },
      b.link.load (Task.drain.frames b.link c.client), b.lock, rfl, fun wire => ?_⟩
    simp only [sendStream, hqueue, goTo]
    rfl
  · rcases Client.queueWrites_of_not_fits c.client b.link hfits with ⟨e, hqueue⟩
    refine ⟨.over (c.client, .error (.frame e)), b.link, b.lock.release, rfl, fun wire => ?_⟩
    simp only [sendStream, hqueue, handOn, finish]

theorem enter_offWire (c : Call) (b : Bus) : b.OffWire c.enter := by
  rcases c with ⟨task, client, started, limit, stage⟩
  cases task with
  | flush => exact (goTo_moves _ (.sending .starting) b).offWire
  | receive source => exact (await_moves _ (fun _ => none) 0 b).offWire
  | drain => exact sendStream_offWire _ b
  | poll => exact sendFrame_offWire _ (fun link => client.pollFrame link) b
  | read size => exact sendFrame_offWire _ (fun link => client.pollFrame link) b
  | readLine => exact sendFrame_offWire _ (fun link => client.pollFrame link) b
  | query request => exact sendFrame_offWire _ (fun link => client.frame link request true) b
  | write request => exact sendFrame_offWire _ (fun link => client.frame link request false) b
  | refuse cause => exact (handOn_moves _ (.error (.register cause)) b).offWire

theorem sent_offWire (c : Call) (b : Bus) : b.OffWire c.sent := by
  have hawait := (await_moves c (fun now => some (now + c.client.config.timeout)) 0 b).offWire
  have hdone := (handOn_moves c (.ok .done) b).offWire
  rcases c with ⟨task, client, started, limit, stage⟩
  cases task with
  | flush => exact (handOn_moves _ (.ok (.sent b.link.statistics.bytesSent)) b).offWire
  | receive source => exact hdone
  | drain => exact hdone
  | write request => exact hdone
  | refuse cause => exact hdone
  | poll => exact hawait
  | read size => exact hawait
  | readLine => exact hawait
  | query request => exact hawait

/-- A round that is not that of a single poll is answered from the buffer, or
    followed by a pause. -/
theorem round_moves (c : Call) (b : Bus) :
    Moves b fun bus =>
      let c' := { c with client := c.buffered.2 }
      match c.buffered.1 with
      | some answer => c'.handOn (.ok answer) bus
      | none =>
        c'.goTo (.pausing (bus.now + c.client.config.pollRate))
          { bus with lock := bus.lock.release } := by
  cases c.buffered.1 with
  | some answer => exact handOn_moves { c with client := c.buffered.2 } (.ok answer) b
  | none =>
      exact ⟨⟨.again { c with
          client := c.buffered.2
          stage := .pausing (b.now + c.client.config.pollRate) },
        b.link, b.lock.release, rfl, fun _ => rfl⟩, nofun⟩

theorem endRound_moves (c : Call) (taken : Nat) (b : Bus) : Moves b (c.endRound taken) := by
  have hround := round_moves c b
  rcases c with ⟨task, client, started, limit, stage⟩
  cases task with
  | poll => exact handOn_moves _ (.ok (.count taken)) b
  | _ => exact hround

theorem lost_moves (c : Call) (taken : Nat) (b : Bus) : Moves b (c.lost taken) := by
  have hround := endRound_moves c taken b
  rcases c with ⟨task, client, started, limit, stage⟩
  cases task with
  | query request => exact handOn_moves _ (.ok (.reply {})) b
  | _ => exact hround

theorem takeChunk_moves (c : Call) (taken : Nat) (payload : List UInt8) (b : Bus) :
    Moves b (c.takeChunk taken payload) := by
  have hround := endRound_moves c taken b
  unfold takeChunk
  cases Stream.parse payload with
  | error e => exact handOn_moves c (.error (.frame (.varuint e))) b
  | ok parsed =>
      cases parsed with
      -- The payload is no chunk of a stream, which ends the round like a chunk for another reader.
      | none => exact hround
      | some chunk =>
          simp only
          by_cases hid : chunk.id ≠ Subframe.toHost
          · simp only [if_pos hid]
            exact hround
          · simp only [if_neg hid]
            by_cases hchannel : chunk.channel ≠ c.client.config.channel
            · simp only [if_pos hchannel]
              -- Another channel of the destination: it is still awake, so the deadline moves.
              exact await_moves c (fun now => some (now + c.client.config.followup)) taken b
            · simp only [if_neg hchannel]
              exact await_moves { c with client := c.client.receive chunk.data }
                (fun now => some (now + c.client.config.followup)) (taken + chunk.data.length) b

theorem takeReply_moves (c : Call) (payload : List UInt8) (b : Bus) :
    Moves b (c.takeReply payload) := by
  unfold takeReply
  cases Register.Reply.parse payload with
  | error e => exact handOn_moves c (.error (.frame (.varuint e))) b
  | ok reply => exact handOn_moves c (.ok (.reply reply)) b

theorem takeFrame_moves (c : Call) (taken : Nat) (f : Frame.Received) (b : Bus) :
    Moves b (c.takeFrame taken f) := by
  have hchunk := takeChunk_moves c taken f.payload b
  have hreply := takeReply_moves c f.payload b
  rcases c with ⟨task, client, started, limit, stage⟩
  cases task with
  | receive source => exact handOn_moves _ (.ok (.frame (some f))) b
  | query request => exact hreply
  | _ => exact hchunk

/-- What follows a reception has nothing to do with the wire any more. -/
theorem received_moves (c : Call) (deadline : Option Duration) (early : Bool) (taken : Nat)
    (result : Reception.Result) (b : Bus) :
    Moves b (c.received deadline early taken result) := by
  have hlost := lost_moves c taken b
  have hawait := await_moves c (fun _ => deadline) taken b
  rcases result with e | _ | f
  · have herror := handOn_moves c (.error e) b
    have hother : Moves b fun bus =>
        if e.isTransient then c.lost taken bus else c.handOn (.error e) bus := by
      by_cases htransient : e.isTransient = true
      · simp only [if_pos htransient]
        exact hlost
      · simp only [if_neg htransient]
        exact herror
    rcases c with ⟨task, client, started, limit, stage⟩
    cases task with
    -- Only a client that hears what comes in hands every error on.
    | receive source => exact herror
    | _ => exact hother
  · have hother : Moves b fun bus =>
        if early then c.await deadline taken bus else c.lost taken bus := by
      cases early with
      | true => exact hawait
      | false => exact hlost
    rcases c with ⟨task, client, started, limit, stage⟩
    cases task with
    -- A frame that passes by ends such a hearing too, with nothing heard.
    | receive source => exact handOn_moves _ (.ok (.frame none)) b
    | _ => exact hother
  · exact takeFrame_moves c taken f b

/-! ### Turns -/

/-- What follows a turn of a reception. -/
def afterReception (c : Call) (deadline : Option Duration) (early : Bool) (taken : Nat)
    (turn : Turn Reception Reception.Result) (bus : Bus) : Move :=
  match turn with
  | .again reception => c.goTo (.receiving deadline early taken reception) bus
  | .waiting => if deadline.any (· ≤ bus.now) then c.lost taken bus else (.waiting, bus)
  | .over result => c.received deadline early taken result bus

/-- What follows a turn of a drain. -/
def afterDrain (c : Call) (turn : Turn Drain (Except Link.Error Unit)) (bus : Bus) : Move :=
  match turn with
  | .again drain => c.goTo (.sending drain) bus
  | .waiting => (.waiting, bus)
  | .over (.error e) => c.handOn (.error e) bus
  | .over (.ok ()) => c.sent bus

/-- What follows a turn that had no limit. -/
def afterWork (id : Nat) (c : Call) (turn : Turn Call (Client × Result)) (bus : Bus) : Move :=
  match turn with
  | .waiting =>
    match c.limit with
    | none => (.waiting, bus)
    | some limit =>
      if c.started + limit ≤ bus.now then
        c.finish (.error (.timeout limit)) { bus with lock := bus.lock.leave id }
      else (.waiting, bus)
  | turn => (turn, bus)

theorem work_eq_afterReception {deadline : Option Duration} {early : Bool} {taken : Nat}
    {r : Reception} (hstage : c.stage = .receiving deadline early taken r) (id : Nat) (b : Bus) :
    c.work id b = c.afterReception deadline early taken (r.step c.onlyFrom b).1
      (r.step c.onlyFrom b).2 := by
  rw [work, hstage]
  simp only
  rcases r.step c.onlyFrom b with ⟨_ | _ | result, bus⟩
  · rfl
  · rfl
  · rfl

theorem work_eq_afterDrain {d : Drain} (hstage : c.stage = .sending d) (id : Nat) (b : Bus) :
    c.work id b = c.afterDrain (d.step b).1 (d.step b).2 := by
  rw [work, hstage]
  simp only
  rcases d.step b with ⟨_ | _ | e | _, bus⟩
  · rfl
  · rfl
  · rfl
  · rfl

theorem step_eq_afterWork (id : Nat) (c : Call) (b : Bus) :
    c.step id b = c.afterWork id (c.work id b).1 (c.work id b).2 := by
  rw [step]
  rcases c.work id b with ⟨_ | _ | final, bus⟩
  · rfl
  · rfl
  · rfl

/-- What follows a reception does not look at how far the call has come. -/
theorem afterReception_stage (c : Call) (stage : Stage) :
    afterReception { c with stage } = c.afterReception := rfl

theorem afterWork_stage (id : Nat) (c : Call) (stage : Stage) :
    afterWork id { c with stage } = c.afterWork id := rfl

theorem onlyFrom_stage (c : Call) (stage : Stage) :
    onlyFrom { c with stage } = c.onlyFrom := rfl

theorem waiting_offWire (b : Bus) :
    b.OffWire fun bus => ((.waiting, bus) : Move) :=
  ⟨.waiting, b.link, b.lock, rfl, fun _ => rfl⟩

theorem afterReception_offWire (c : Call) (deadline : Option Duration) (early : Bool)
    (taken : Nat) (turn : Turn Reception Reception.Result) (b : Bus) :
    b.OffWire (c.afterReception deadline early taken turn) := by
  rcases turn with reception | _ | result
  · exact (goTo_moves c (.receiving deadline early taken reception) b).offWire
  · exact .ite (fun bus => deadline.any (· ≤ bus.now) = true) (fun _ => Iff.rfl)
      (lost_moves c taken b).offWire (waiting_offWire b)
  · exact (received_moves c deadline early taken result b).offWire

theorem afterDrain_offWire (c : Call) (turn : Turn Drain (Except Link.Error Unit)) (b : Bus) :
    b.OffWire (c.afterDrain turn) := by
  rcases turn with drain | _ | e | _
  · exact (goTo_moves c (.sending drain) b).offWire
  · exact waiting_offWire b
  · exact (handOn_moves c (.error e) b).offWire
  · exact sent_offWire c b

theorem afterWork_offWire (id : Nat) (c : Call) (turn : Turn Call (Client × Result)) (b : Bus) :
    b.OffWire (c.afterWork id turn) := by
  rcases turn with next | _ | final
  · exact ⟨.again next, b.link, b.lock, rfl, fun _ => rfl⟩
  · unfold afterWork
    cases c.limit with
    | none => exact waiting_offWire b
    | some limit =>
        exact .ite (fun bus => c.started + limit ≤ bus.now) (fun _ => Iff.rfl)
          ⟨.over (c.client, .error (.timeout limit)), b.link, b.lock.leave id, rfl, fun _ => rfl⟩
          (waiting_offWire b)
  · exact ⟨.over final, b.link, b.lock, rfl, fun _ => rfl⟩

/-- Whether a turn takes something off the wire. -/
def takes (c : Call) (b : Bus) : Bool :=
  match c.stage with
  | .receiving _ _ _ r => (b.wire.read b.now r.wants).1.takes
  | _ => false

/-- A call on two buses reads the same, if it reads. -/
def ReadsSame (interrupts : Bool) (c : Call) (b b' : Bus) : Prop :=
  ∀ deadline early taken r, c.stage = .receiving deadline early taken r →
    (b.wire.read b.now r.wants).1 = (b'.wire.read b'.now r.wants).1 ∧
      (b.wire.read b.now r.wants).2.Alike interrupts (b'.wire.read b'.now r.wants).2

theorem takes_same (h : c.ReadsSame interrupts b b') : c.takes b = c.takes b' := by
  unfold takes
  split
  · rename_i deadline early taken r hstage
    rw [(h deadline early taken r hstage).1]
  · rfl

/-- A call sends, receives, or takes a turn that has nothing to do with the
    wire. -/
theorem work_kinds (c : Call) :
    (∃ d, c.stage = .sending d) ∨
      (∃ deadline early taken r, c.stage = .receiving deadline early taken r) ∨
      ∀ (id : Nat) (b : Bus), b.OffWire (c.work id) ∧ c.takes b = false := by
  cases hstage : c.stage with
  | sending d => exact Or.inl ⟨d, rfl⟩
  | receiving deadline early taken r => exact Or.inr (Or.inl ⟨deadline, early, taken, r, rfl⟩)
  -- The other stages leave the wire alone, so they take nothing off it.
  | fresh =>
      refine Or.inr (Or.inr fun id b => ⟨?_, by rw [takes, hstage]⟩)
      have hstart := start_offWire id c b
      unfold work
      rw [hstage]
      exact hstart
  | queued =>
      refine Or.inr (Or.inr fun id b => ⟨?_, by rw [takes, hstage]⟩)
      have henter := enter_offWire c b
      unfold work
      rw [hstage]
      exact .ite (fun bus => bus.lock.holder = some id) (fun _ => Iff.rfl) henter
        (waiting_offWire b)
  | pausing moment =>
      refine Or.inr (Or.inr fun id b => ⟨?_, by rw [takes, hstage]⟩)
      have hwake := (goTo_moves c .fresh b).offWire
      unfold work
      rw [hstage]
      exact .ite (fun bus => moment ≤ bus.now) (fun _ => Iff.rfl) hwake (waiting_offWire b)

/-- A turn takes something off the wire or leaves no less than there was. No
    header that was given up is taken back. -/
theorem work_leaves (id : Nat) (c : Call) (b : Bus) :
    b.resyncs ≤ (c.work id b).2.resyncs ∧
      if c.takes b then (c.work id b).2.wire.arrivals.weight < b.wire.arrivals.weight
      else b.wire.arrivals.weight ≤ (c.work id b).2.wire.arrivals.weight := by
  rcases work_kinds c with ⟨d, hstage⟩ | ⟨deadline, early, taken, r, hstage⟩ | hoff
  · have htakes : c.takes b = false := by
      rw [takes, hstage]
    have hoff := afterDrain_offWire c (d.step b).1 (d.step b).2
    have hleaves := d.step_leaves b
    rw [work_eq_afterDrain hstage, htakes, hoff.resyncs, hoff.wire, hleaves.1]
    exact ⟨Nat.le_refl _, Arrivals.weight_le_of_prefix hleaves.2⟩
  · -- The reception is the only part of a call that reads.
    have htakes : c.takes b = (b.wire.read b.now r.wants).1.takes := by
      rw [takes, hstage]
    have hoff := afterReception_offWire c deadline early taken (r.step c.onlyFrom b).1
      (r.step c.onlyFrom b).2
    rcases r.step_leaves c.onlyFrom b with ⟨hresyncs, hwire⟩
    rw [work_eq_afterReception hstage, htakes, hoff.resyncs, hoff.wire]
    refine ⟨hresyncs, ?_⟩
    split
    · rename_i hread
      rw [if_pos hread] at hwire
      exact hwire
    · rename_i hread
      rw [if_neg hread] at hwire
      exact Nat.le_of_eq (by rw [hwire])
  · rw [(hoff id b).2, (hoff id b).1.resyncs, (hoff id b).1.wire]
    exact ⟨Nat.le_refl _, Nat.le_refl _⟩

theorem step_leaves (id : Nat) (c : Call) (b : Bus) :
    b.resyncs ≤ (c.step id b).2.resyncs ∧
      if c.takes b then (c.step id b).2.wire.arrivals.weight < b.wire.arrivals.weight
      else b.wire.arrivals.weight ≤ (c.step id b).2.wire.arrivals.weight := by
  have hoff := afterWork_offWire id c (c.work id b).1 (c.work id b).2
  rw [step_eq_afterWork, hoff.resyncs, hoff.wire]
  exact work_leaves id c b

theorem work_same (h : b.Alike interrupts b') (hreads : c.ReadsSame interrupts b b')
    (hsteady : b.Steady interrupts (c.work id b).2)
    (hsteady' : b'.Steady interrupts (c.work id b').2) :
    Bus.Same interrupts (c.work id b) (c.work id b') := by
  rcases work_kinds c with ⟨d, hstage⟩ | ⟨deadline, early, taken, r, hstage⟩ | hoff
  · have hsame := Drain.step_same h d
    rw [work_eq_afterDrain hstage, work_eq_afterDrain hstage, ← hsame.result]
    exact (afterDrain_offWire c (d.step b).1 (d.step b).2).same hsame.bus
  · -- Only the reception can give a header up.
    have hresyncs (b : Bus) : (c.work id b).2.resyncs = (r.step c.onlyFrom b).2.resyncs := by
      rw [work_eq_afterReception hstage,
        (afterReception_offWire c deadline early taken _ _).resyncs]
    have hsame : Bus.Same interrupts (r.step c.onlyFrom b) (r.step c.onlyFrom b') := by
      refine Reception.step_same h (hreads deadline early taken r hstage) ?_ ?_
      · rw [Bus.Steady, ← hresyncs]
        exact hsteady
      · rw [Bus.Steady, ← hresyncs]
        exact hsteady'
    rw [work_eq_afterReception hstage, work_eq_afterReception hstage, ← hsame.result]
    exact (afterReception_offWire c deadline early taken (r.step c.onlyFrom b).1
      (r.step c.onlyFrom b).2).same hsame.bus
  · -- A stage away from the wire reads the clock and the lock, which interrupts leave alone.
    exact (hoff id b).1.same h

/-- Calls that read the same come to the same. -/
theorem step_same (h : b.Alike interrupts b') (hreads : c.ReadsSame interrupts b b')
    (hsteady : b.Steady interrupts (c.step id b).2)
    (hsteady' : b'.Steady interrupts (c.step id b').2) :
    Bus.Same interrupts (c.step id b) (c.step id b') := by
  have hresyncs (b : Bus) : (c.step id b).2.resyncs = (c.work id b).2.resyncs := by
    rw [step_eq_afterWork, (afterWork_offWire id c _ _).resyncs]
  have hsame : Bus.Same interrupts (c.work id b) (c.work id b') := by
    refine work_same h hreads ?_ ?_
    · rw [Bus.Steady, ← hresyncs]
      exact hsteady
    · rw [Bus.Steady, ← hresyncs]
      exact hsteady'
  rw [step_eq_afterWork, step_eq_afterWork, ← hsame.result]
  exact (afterWork_offWire id c (c.work id b).1 (c.work id b).2).same hsame.bus

/-- A call that is interrupted while it reads makes its read again. -/
theorem step_interrupted {deadline : Option Duration} {early : Bool} {taken : Nat}
    {r : Reception} {moment : Duration} {cause : Transport.Fault} {later : Arrivals}
    (hstage : c.stage = .receiving deadline early taken r)
    (harrivals : b.wire.arrivals = (moment, .fault cause) :: later) (hdue : ¬ b.now < moment)
    (hkind : cause.kind = .interrupted) (id : Nat) :
    c.step id b = (.again c, { b with wire := { b.wire with arrivals := later } }) := by
  have hread := Wire.read_fault r.wants harrivals hdue
  have hstep : r.step c.onlyFrom b =
      (.again r, { b with wire := { b.wire with arrivals := later } }) := by
    rw [Reception.step, hread]
    exact if_pos hkind
  have hsame : { c with stage := .receiving deadline early taken r } = c := by
    rw [← hstage]
  rw [step_eq_afterWork, work_eq_afterReception hstage, hstep, afterReception, goTo, hsame]
  rfl

/-- A turn that takes something off the wire does not wait. -/
theorem step_ne_waiting (id : Nat) (h : c.takes b = true) : (c.step id b).1 ≠ .waiting := by
  rcases work_kinds c with ⟨d, hstage⟩ | ⟨deadline, early, taken, r, hstage⟩ | hoff
  · rw [takes, hstage] at h
    -- Nothing is read while a request goes out.
    exact absurd h Bool.false_ne_true
  · rw [takes, hstage] at h
    have hturn := Reception.step_ne_waiting c.onlyFrom h
    -- A reception that read is not waiting, and what it hands over moves the call on.
    have hwork : (c.work id b).1 ≠ .waiting := by
      rw [work_eq_afterReception hstage]
      generalize r.step c.onlyFrom b = done at hturn ⊢
      rcases done with ⟨_ | _ | result, left⟩
      · nofun
      · exact absurd rfl hturn
      · exact (received_moves c deadline early taken result left).moves
    rw [step_eq_afterWork]
    generalize c.work id b = done at hwork ⊢
    rcases done with ⟨_ | _ | final, left⟩
    · nofun
    · exact absurd rfl hwork
    · nofun
  · rw [(hoff id b).2] at h
    exact absurd h Bool.false_ne_true

/-- A call that receives takes bytes that are due. -/
theorem takes_data {deadline : Option Duration} {early : Bool} {taken : Nat} {r : Reception}
    {moment : Duration} {byte : UInt8} {more : List UInt8} {later : Arrivals}
    (hstage : c.stage = .receiving deadline early taken r) (hwants : 0 < r.wants)
    (harrivals : b.wire.arrivals = (moment, .data byte more) :: later)
    (hdue : ¬ b.now < moment) : c.takes b = true := by
  rcases hcount : r.wants with _ | count
  · omega
  simp only [takes, hstage]
  rw [Wire.read_data _ harrivals hdue, hcount, List.take_succ_cons]
  rfl

/-- A call that receives can read the first byte of an arrival alone: that is all
    it would have read, or it goes on with the others as if it had read them at
    once. -/
theorem step_split {deadline : Option Duration} {early : Bool} {taken : Nat} {r : Reception}
    {moment : Duration} {byte next : UInt8} {more : List UInt8} {later : Arrivals}
    (hstage : c.stage = .receiving deadline early taken r) (hwants : 0 < r.wants)
    (harrivals : b.wire.arrivals = (moment, .data byte (next :: more)) :: later)
    (hdue : ¬ b.now < moment) (id : Nat) :
    let alone : Bus := { b with wire := { b.wire with
      arrivals := (moment, .data byte []) :: (moment, .data next more) :: later } }
    let behind : Bus := { b with wire := { b.wire with
      arrivals := (moment, .data next more) :: later } }
    c.step id alone = c.step id b ∨
      ∃ c', c.step id alone = (.again c', behind) ∧ c'.takes behind = true ∧
        c'.step id behind = c.step id b := by
  intro alone behind
  rcases Reception.step_split c.onlyFrom hwants harrivals hdue with
    hsame | ⟨r', halone, htakes, hrest⟩
  · -- The byte alone already gave the reception what it wanted.
    refine Or.inl ?_
    rw [step_eq_afterWork, step_eq_afterWork, work_eq_afterReception hstage,
      work_eq_afterReception hstage, hsame]
  · -- The reception has come further, and nothing else of the call.
    refine Or.inr ⟨{ c with stage := .receiving deadline early taken r' }, ?_, htakes, ?_⟩
    · rw [step_eq_afterWork, work_eq_afterReception hstage]
      rw [halone]
      rfl
    · rw [step_eq_afterWork, step_eq_afterWork, work_eq_afterReception hstage,
        work_eq_afterReception rfl, afterReception_stage, afterWork_stage, onlyFrom_stage, hrest]

end Call

end Multidrop
