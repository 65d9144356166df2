import Multidrop.Proofs.Call.Expiry
import Multidrop.Proofs.Session.Outgoing

/-!
# What a Bus Carries of a Stream

Where only one client uses a link, all that is sent, in flight and queued are
frames of its calls, one behind another. The stream bytes in them, with what is
still buffered, are what the client was given to send, and no turn of any call
changes that. Nor does it matter what the wire does meanwhile, or how long it
takes.

## Main definitions

* `Bus.Carries`: The stream on a bus, with what is still buffered.
* `Bus.drift`: Time passes, and the wire changes in all but what was sent.
* `Call.Underway`: The invariant of a call that has its link to itself.

## Theorems

* `Call.Goes.carries`: A turn keeps the stream as it is.
* `Call.Underway.client`, `Call.Underway.next`: What a turn has done to the
  client, and what it keeps.
* `Call.Underway.drift`: What happens elsewhere changes nothing.
-/

namespace Multidrop

namespace Bus

/-- The frames on a bus, sent or not, carry a stream for a client, up to what the
    client has still buffered. -/
def Carries (c : Client) (data : List UInt8) (bus : Bus) : Prop :=
  ∃ frames : List Frame, (∀ f ∈ frames, f.Fits) ∧ bus.traffic = frames.flatMap Frame.bytes ∧
    frames.flatMap (Frame.streamData c.destination c.config.channel) ++ c.writeBuffer = data

/-- Time passes, and the wire changes in all but what was sent. -/
def drift (now : Duration) (wire : Wire) (bus : Bus) : Bus :=
  { bus with now := max bus.now now, wire := bus.wire.outside wire }

variable {c c' : Client} {data : List UInt8} {before bus : Bus}

theorem drift_traffic (now : Duration) (wire : Wire) (bus : Bus) :
    (bus.drift now wire).traffic = bus.traffic := rfl

/-- A strict reader finds the stream in the traffic. -/
theorem Carries.stream (h : bus.Carries c data) :
    Session.streamOf c bus.traffic ++ c.writeBuffer = data := by
  rcases h with ⟨frames, hfits, htraffic, hdata⟩
  rw [htraffic, Session.streamOf_arrived (Frame.decoded_flatMap hfits), hdata]

/-- In what was sent so far, or was at some time, a strict reader finds the front
    of the stream. -/
theorem Carries.front (h : bus.Carries c data) {bytes : List UInt8}
    (hbytes : bytes <+: bus.traffic) :
    Session.streamOf c bytes <+: Session.streamOf c bus.traffic := by
  rcases h with ⟨frames, hfits, htraffic, _⟩
  rw [htraffic] at hbytes
  rcases Frame.decoded_of_prefix hfits hbytes with ⟨whole, later, hframes, hdecoded, _⟩
  rw [htraffic, Session.streamOf_arrived (Frame.decoded_flatMap hfits),
    Session.streamOf_arrived hdecoded, hframes, List.flatMap_append]
  exact List.prefix_append _ _

/-- A client that has written is one whose stream goes on with that. -/
theorem Carries.write (h : bus.Carries c data) (bytes : List UInt8) :
    bus.Carries (c.write bytes) (data ++ bytes) := by
  rcases h with ⟨frames, hfits, htraffic, hdata⟩
  refine ⟨frames, hfits, htraffic, ?_⟩
  rw [← hdata, List.append_assoc]
  rfl

theorem sent_prefix_traffic (bus : Bus) : bus.wire.sent <+: bus.traffic := by
  rw [traffic, List.append_assoc]
  exact List.prefix_append _ _

/-- Where a stream had been sent whole, it stays so until something is added to
    it. -/
theorem Carries.whole (hbefore : before.Carries c data) (h : bus.Carries c data)
    (hbuffer : c.writeBuffer = []) (hall : before.wire.sent = before.traffic)
    (hgrows : before.wire.sent <+: bus.wire.sent) : Session.streamOf c bus.wire.sent = data := by
  have hstream := hbefore.stream
  have hfront := h.front bus.sent_prefix_traffic
  have hend := h.stream
  rw [hbuffer, List.append_nil] at hstream hend
  rw [hend] at hfront
  rcases hgrows with ⟨rest, hrest⟩
  rcases hbefore with ⟨frames, hfits, htraffic, _⟩
  have hsplit : Session.streamOf c bus.wire.sent = data ++ Session.streamOf c rest := by
    rw [← hrest, hall, ← hstream, htraffic]
    simp only [Session.streamOf, Frame.decoded_append hfits, Frame.decoded_flatMap hfits,
      List.flatMap_append]
  rw [hsplit] at hfront ⊢
  -- There is no room behind the stream for anything more.
  have hnil : Session.streamOf c rest = [] := by
    have hlength := hfront.length_le
    rw [List.length_append] at hlength
    exact List.eq_nil_of_length_eq_zero (by omega)
  rw [hnil, List.append_nil]

end Bus

namespace Call

variable {id : Nat} {c c' : Call} {bus bus' : Bus} {move : Move} {data : List UInt8}

/-- A turn keeps the stream as it is: what leaves the buffer is carried. -/
theorem Goes.carries (h : Goes id c bus move) (hbuilt : c.task.Built)
    (hcarries : bus.Carries c.client data) : move.2.Carries (c.clientAfter move.1) data := by
  rcases hcarries with ⟨frames, hfits, htraffic, hdata⟩
  have hclient := h.client
  have hadds := h.traffic
  have hdrains := h.drains
  -- A turn adds at most the frames of its own call, when that gets the link.
  refine ⟨frames ++ if c.enters id bus then Frame.fitting (c.task.frames bus.link c.client)
    else [], ?_, ?_, ?_⟩
  · intro f hf
    rcases List.mem_append.mp hf with hold | hnew
    · exact hfits f hold
    · split at hnew
      · exact Frame.fits_of_mem_fitting hnew
      · exact absurd hnew List.not_mem_nil
  · rw [hadds, htraffic, List.flatMap_append]
    split
    · rw [Frame.group_eq]
    · rfl
  · rw [hclient.1, hclient.2, List.flatMap_append, List.append_assoc, ← hdata, ← hdrains]
    split
    · rw [Task.streamData_fitting hbuilt]
    · rfl

/-- A turn takes nothing back from the wire. -/
theorem Goes.sent_grows (h : Goes id c bus move) : bus.wire.sent <+: move.2.wire.sent := by
  cases h.outward with
  | apart hnow hwire => exact hwire ▸ List.prefix_refl _
  | drains hgoes hnow hwire =>
      rw [hwire]
      exact hgoes.grows.1
  | hears hstill hnow hwire =>
      have hsame := (congrArg Wire.sent hwire).trans hstill.sent
      exact hsame ▸ List.prefix_refl _

/-- What a drain takes from the buffer is all of it, if it takes anything. -/
theorem Goes.buffer (h : Goes id c bus move) :
    (c.clientAfter move.1).writeBuffer = c.client.writeBuffer ∨
      (c.clientAfter move.1).writeBuffer = [] := by
  have hdrains := h.drains
  split at hdrains
  · rw [Task.drained.eq_def] at hdrains
    split at hdrains
    · split at hdrains
      · exact Or.inr (List.self_eq_append_right.mp hdrains.symm)
      · exact Or.inl hdrains
    · exact Or.inl hdrains
  · exact Or.inl hdrains

/-- The invariant of a call of a client that has its link to itself. It was
    `begun` with the client as it was then. -/
structure Underway (begun : Call) (data : List UInt8) (c : Call) (bus : Bus) : Prop where
  task : c.task = begun.task
  started : c.started = begun.started
  limit : c.limit = begun.limit
  destination : c.client.destination = begun.client.destination
  config : c.client.config = begun.client.config
  built : c.task.Built
  sound : c.Sound
  reception : c.reception.Sound bus.link.config.limits
  ahead : c.Ahead bus
  carries : bus.Carries c.client data
  buffer : c.client.writeBuffer = begun.client.writeBuffer ∨ c.client.writeBuffer = []

variable {begun : Call}

/-- A call that begins. -/
theorem underway_begun (hstage : begun.stage = .fresh) (hbuilt : begun.task.Built)
    (hcarries : bus.Carries begun.client data) : Underway begun data begun bus where
  task := rfl
  started := rfl
  limit := rfl
  destination := rfl
  config := rfl
  built := hbuilt
  sound := by
    rw [Sound, hstage]
    trivial
  reception := by
    rw [reception, hstage]
    exact Reception.sound_start _
  ahead := ahead_of_stage fun d => by rw [hstage]; exact Stage.noConfusion
  carries := hcarries
  buffer := Or.inl rfl

/-- What a call has done to its client and its link is the same whether it is
    over or not. -/
theorem Underway.client (h : Underway begun data c bus) (id : Nat) :
    let after := c.clientAfter (c.step id bus).1
    after.destination = begun.client.destination ∧ after.config = begun.client.config ∧
      (c.step id bus).2.Carries after data ∧
      (after.writeBuffer = begun.client.writeBuffer ∨ after.writeBuffer = []) := by
  have hgoes := step_goes h.sound id bus
  refine ⟨hgoes.client.1.trans h.destination, hgoes.client.2.trans h.config,
    hgoes.carries h.built h.carries, ?_⟩
  rcases hgoes.buffer with hsame | hnone
  · rw [hsame]
    exact h.buffer
  · exact Or.inr hnone

/-- A turn that does not end the call keeps the invariant. -/
theorem Underway.next (h : Underway begun data c bus)
    (hafter : c.after (c.step id bus).1 = some c') :
    Underway begun data c' (c.step id bus).2 := by
  have hgoes := step_goes h.sound id bus
  have hagain := hgoes.again hafter
  have hclient : c'.client = c.clientAfter (c.step id bus).1 := by
    rw [hagain]
  -- The client changes with the frames that come in, and never in what the exchange reads of it.
  rcases h.client id with ⟨hdestination, hconfig, hcarries, hbuffer⟩
  refine ⟨?_, ?_, ?_, ?_, ?_, ?_, hgoes.sound h.sound hafter, ?_, hgoes.ahead h.ahead hafter, ?_,
    ?_⟩
  · rw [hagain]
    exact h.task
  · rw [hagain]
    exact h.started
  · rw [hagain]
    exact h.limit
  · rw [hclient]
    exact hdestination
  · rw [hclient]
    exact hconfig
  · rw [hagain]
    exact h.built
  · rw [hgoes.config]
    exact step_reception h.sound h.reception id hafter
  · rw [hclient]
    exact hcarries
  · rw [hclient]
    exact hbuffer

/-- What happens elsewhere keeps it as well. -/
theorem Underway.drift (h : Underway begun data c bus) (now : Duration) (wire : Wire) :
    Underway begun data c (bus.drift now wire) := by
  refine ⟨h.task, h.started, h.limit, h.destination, h.config, h.built, h.sound, h.reception, ?_,
    h.carries, h.buffer⟩
  intro d hd
  rw [Bus.drift_traffic]
  exact (h.ahead d hd).of_same (.of_eq rfl rfl) rfl

end Call

end Multidrop
