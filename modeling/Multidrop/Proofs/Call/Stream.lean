import Multidrop.Proofs.Call.Effects
import Multidrop.Proofs.Register.Request

/-!
# Stream Bytes to a Device

What the frames of an exchange carry of a stream. A drain carries what its
client has buffered, in chunks, to the channel of that client and to no other;
a poll opens the same channel with nothing in it, and a request does not look
like a stream at all.

At the turn at which a drain gets the lock, what it queues leaves the buffer,
and at no other turn does anything enter or leave it.

## Main definitions

* `Frame.streamData`: The stream bytes in a frame, for a channel of a device.
* `Task.Built`: A task whose request was built from operations.
* `Task.drained`: What an exchange takes from the buffer.

## Theorems

* `Task.streamData_fitting`: The frames of an exchange carry what it takes.
* `Task.streamData_fitting_of_ne`: They carry nothing for anyone else.
* `Task.length_streamData_le`: No frame carries more than a chunk.
* `Call.Goes.drains`: What a turn takes from the buffer.
-/

namespace Multidrop

/-- The stream bytes in a frame, for a channel of a device. -/
def Frame.streamData (destination : UInt8) (channel : UInt32) (f : Frame) : List UInt8 :=
  if f.destination = destination then Stream.carried Subframe.toDevice channel f.payload else []

namespace Frame

variable {f : Frame} {channel : UInt32} {data : List UInt8}

theorem length_lt_of_fits {id : UInt32} (h : f.Fits)
    (hpayload : f.payload = Stream.payload id channel data) : data.length < UInt32.size := by
  have hle := Stream.length_le_payload id channel data
  have hmax := h.2.1
  rw [hpayload] at hmax
  simp only [maxPayload] at hmax
  rw [UInt32.size]
  omega

/-- A frame with a stream sub-frame carries its data for its channel of its
    device, and nothing for any other. -/
theorem streamData_of_payload (h : f.Fits)
    (hpayload : f.payload = Stream.payload Subframe.toDevice channel data)
    (destination : UInt8) (channel' : UInt32) :
    f.streamData destination channel' =
      if f.destination = destination ∧ channel = channel' then data else [] := by
  have hlt := length_lt_of_fits h hpayload
  rw [streamData, hpayload]
  by_cases hdestination : f.destination = destination
  · rw [if_pos hdestination]
    by_cases hchannel : channel = channel'
    · rw [if_pos ⟨hdestination, hchannel⟩, ← hchannel]
      exact Stream.carried_payload _ _ hlt
    · rw [if_neg fun hc => hchannel hc.2]
      exact Stream.carried_payload_of_ne _ hchannel hlt
  · rw [if_neg hdestination, if_neg fun hc => hdestination hc.1]

theorem streamData_of_none
    (h : ∀ channel, Stream.carried Subframe.toDevice channel f.payload = [])
    (destination : UInt8) (channel : UInt32) : f.streamData destination channel = [] := by
  rw [streamData, h channel, ite_self]

end Frame

/-- The most stream bytes in a frame are as many as configured, but at least
    one. -/
theorem Client.Config.chunkSize_toNat (c : Client.Config) :
    c.chunkSize.toNat = max 1 c.maxChunk.toNat := by
  unfold chunkSize
  by_cases hzero : c.maxChunk = 0
  · rw [if_pos hzero, hzero]
    rfl
  · have hpos : c.maxChunk.toNat ≠ 0 := fun h0 => hzero (UInt64.toNat_inj.mp h0)
    rw [if_neg hzero]
    omega

namespace Task

/-- A task whose request, if it has one, was built from operations. -/
def Built : Task → Prop
  | .query bytes => ∃ request : Register.Request, request.Built ∧ bytes = request.bytes
  | .write bytes => ∃ request : Register.Request, request.Built ∧ bytes = request.bytes
  | _ => True

theorem built_build (operations : List Register.Operation) {task : Register.Request → Task}
    (h : ∀ request : Register.Request, request.Built → (task request).Built) :
    (build operations task).Built := by
  unfold build
  split
  · trivial
  · rename_i request hbuilt
    exact h request ⟨operations, hbuilt⟩

theorem built_ofRequest {request : Register.Request} (h : request.Built) :
    (ofRequest request).Built := by
  unfold ofRequest
  split
  · exact ⟨request, h, rfl⟩
  · exact ⟨request, h, rfl⟩

/-- What an exchange takes from the buffer of its client. -/
def drained (link : Link) (client : Client) : Task → List UInt8
  | .drain =>
      if (frames link client .drain).all (·.encode.isOk) then client.writeBuffer else []
  | _ => []

variable {link : Link} {client : Client} {task : Task}

/-- The frames of an exchange go to the device of its client. Each is a stream
    sub-frame for the channel of the client, with a chunk in it at most and
    nothing unless the exchange is a drain, or it is no stream at all. -/
theorem mem_frames (hbuilt : task.Built) {f : Frame} (h : f ∈ task.frames link client) :
    f.destination = client.destination ∧
      ((∃ data, f.payload = Stream.payload Subframe.toDevice client.config.channel data ∧
          data.length ≤ client.config.chunkSize.toNat ∧ (task ≠ .drain → data = [])) ∨
        ∀ channel, Stream.carried Subframe.toDevice channel f.payload = []) := by
  -- A poll is a stream sub-frame without data.
  have hpoll : ∀ {g : Frame}, g ∈ [client.pollFrame link] → g.destination = client.destination ∧
      g.payload = Stream.payload Subframe.toDevice client.config.channel [] := by
    intro g hg
    rw [List.mem_singleton.mp hg]
    exact ⟨rfl, rfl⟩
  cases task with
  | drain =>
      rcases List.mem_map.mp h with ⟨chunk, hchunk, hframe⟩
      rw [← hframe]
      exact ⟨rfl, Or.inl ⟨chunk, rfl, (Client.length_le_of_mem_chunks hchunk).1,
        fun hne => absurd rfl hne⟩⟩
  | poll => exact ⟨(hpoll h).1, Or.inl ⟨[], (hpoll h).2, Nat.zero_le _, fun _ => rfl⟩⟩
  | read size => exact ⟨(hpoll h).1, Or.inl ⟨[], (hpoll h).2, Nat.zero_le _, fun _ => rfl⟩⟩
  | readLine => exact ⟨(hpoll h).1, Or.inl ⟨[], (hpoll h).2, Nat.zero_le _, fun _ => rfl⟩⟩
  -- A register sub-frame carries nothing for a stream, on any channel.
  | query bytes =>
      rcases hbuilt with ⟨request, hrequest, hbytes⟩
      rw [List.mem_singleton.mp h, hbytes]
      exact ⟨rfl, Or.inr fun channel => Register.Request.carried_built hrequest channel⟩
  | write bytes =>
      rcases hbuilt with ⟨request, hrequest, hbytes⟩
      rw [List.mem_singleton.mp h, hbytes]
      exact ⟨rfl, Or.inr fun channel => Register.Request.carried_built hrequest channel⟩
  | flush => exact absurd h List.not_mem_nil
  | receive source => exact absurd h List.not_mem_nil
  | refuse cause => exact absurd h List.not_mem_nil

/-- No frame carries more than a chunk. -/
theorem length_streamData_le (hbuilt : task.Built) {f : Frame} (hf : f.Fits)
    (h : f ∈ task.frames link client) (destination : UInt8) (channel : UInt32) :
    (f.streamData destination channel).length ≤ client.config.chunkSize.toNat := by
  rcases mem_frames hbuilt h with ⟨hdestination, ⟨data, hpayload, hle, _⟩ | hnone⟩
  · rw [Frame.streamData_of_payload hf hpayload]
    split
    · exact hle
    · exact Nat.zero_le _
  · rw [Frame.streamData_of_none hnone]
    exact Nat.zero_le _

/-- The frames of an exchange carry nothing for another device or another
    channel. -/
theorem streamData_of_ne (hbuilt : task.Built) {f : Frame} (hf : f.Fits)
    (h : f ∈ task.frames link client) {destination : UInt8} {channel : UInt32}
    (hne : ¬ (client.destination = destination ∧ client.config.channel = channel)) :
    f.streamData destination channel = [] := by
  rcases mem_frames hbuilt h with ⟨hdestination, ⟨data, hpayload, _, _⟩ | hnone⟩
  · rw [Frame.streamData_of_payload hf hpayload, hdestination, if_neg hne]
  · exact Frame.streamData_of_none hnone destination channel

/-- The frames of a task that is no drain carry nothing. -/
theorem streamData_of_not_drain (hbuilt : task.Built) (hdrain : task ≠ .drain) {f : Frame}
    (hf : f.Fits) (h : f ∈ task.frames link client) (destination : UInt8)
    (channel : UInt32) : f.streamData destination channel = [] := by
  rcases mem_frames hbuilt h with ⟨hdestination, ⟨data, hpayload, _, hempty⟩ | hnone⟩
  · rw [Frame.streamData_of_payload hf hpayload, hempty hdrain, ite_self]
  · exact Frame.streamData_of_none hnone destination channel

theorem drained_of_not_drain (hdrain : task ≠ .drain) : task.drained link client = [] := by
  cases task with
  | drain => exact absurd rfl hdrain
  | poll => rfl
  | read size => rfl
  | readLine => rfl
  | query request => rfl
  | write request => rfl
  | flush => rfl
  | receive source => rfl
  | refuse cause => rfl

/-- What a drain takes is all that is buffered, and it leaves nothing. -/
theorem drained_append (hfits : ∀ f ∈ task.frames link client, f.Fits) :
    task.drained link client ++ (task.relieve client).writeBuffer = client.writeBuffer := by
  by_cases hdrain : task = .drain
  · rw [hdrain] at hfits ⊢
    have hall : (frames link client .drain).all (·.encode.isOk) = true :=
      List.all_eq_true.mpr fun f hf => (Frame.isOk_encode_iff f).mpr (hfits f hf)
    rw [drained, if_pos hall, relieve, List.append_nil]
  · rw [drained_of_not_drain hdrain, List.nil_append]
    unfold relieve
    split
    · exact absurd rfl hdrain
    · rfl

/-- A drain of which nothing is queued takes nothing. -/
theorem drained_of_none (hnone : Frame.fitting (task.frames link client) = []) :
    task.drained link client = [] := by
  by_cases hdrain : task = .drain
  · rw [hdrain] at hnone ⊢
    rw [drained]
    rw [Frame.fitting] at hnone
    by_cases hall : (frames link client .drain).all (·.encode.isOk) = true
    · -- No frames means that nothing is buffered.
      rw [if_pos hall, frames, List.map_eq_nil_iff] at hnone
      rw [if_pos hall, ← Client.flatten_chunks client.config.chunkSize_pos client.writeBuffer,
        hnone, List.flatten_nil]
    · rw [if_neg hall]
  · exact drained_of_not_drain hdrain

/-- The frames that an exchange queues carry what it takes from the buffer to
    the channel of its client. -/
theorem streamData_fitting (hbuilt : task.Built) :
    (Frame.fitting (task.frames link client)).flatMap
        (Frame.streamData client.destination client.config.channel) =
      task.drained link client := by
  by_cases hdrain : task = .drain
  · rw [hdrain, drained, Frame.fitting]
    split
    · rename_i hall
      -- Each frame carries the chunk it was made of, and the chunks are the buffer.
      have hchunks : ∀ chunk ∈ Client.chunks client.config.chunkSize.toNat client.writeBuffer,
          (client.dataFrame link chunk).streamData client.destination client.config.channel =
            chunk := by
        intro chunk hchunk
        have hfits := (Frame.isOk_encode_iff _).mp
          (List.all_eq_true.mp hall _ (List.mem_map_of_mem hchunk))
        rw [Frame.streamData_of_payload hfits rfl]
        exact if_pos ⟨rfl, rfl⟩
      have hflatten := Client.flatten_chunks client.config.chunkSize_pos client.writeBuffer
      rw [frames, List.flatMap_map, List.flatMap_def, List.map_congr_left hchunks, List.map_id',
        hflatten]
    · rfl
  · rw [drained_of_not_drain hdrain]
    refine List.flatMap_eq_nil_iff.mpr fun f hf => ?_
    exact streamData_of_not_drain hbuilt hdrain (Frame.fits_of_mem_fitting hf)
      (Frame.mem_of_mem_fitting hf) _ _

/-- They carry nothing for another device or another channel. -/
theorem streamData_fitting_of_ne (hbuilt : task.Built) {destination : UInt8} {channel : UInt32}
    (hne : ¬ (client.destination = destination ∧ client.config.channel = channel)) :
    (Frame.fitting (task.frames link client)).flatMap
      (Frame.streamData destination channel) = [] := by
  refine List.flatMap_eq_nil_iff.mpr fun f hf => ?_
  exact streamData_of_ne hbuilt (Frame.fits_of_mem_fitting hf) (Frame.mem_of_mem_fitting hf) hne

end Task

namespace Call

variable {id : Nat} {c : Call} {bus : Bus} {move : Move}

/-- Nothing but getting the lock for a drain takes anything from the buffer,
    and nothing enters it. -/
theorem Goes.drains (h : Goes id c bus move) :
    (if c.enters id bus then c.task.drained bus.link c.client else []) ++
      (c.clientAfter move.1).writeBuffer = c.client.writeBuffer := by
  have hbuffered : c.buffered.2.writeBuffer = c.client.writeBuffer := by
    rw [buffered_eq]
  cases h with
  | refuse hfresh =>
      rw [nothing_of_stage hfresh Stage.noConfusion]
      rfl
  | answer hfresh hsome =>
      rw [nothing_of_stage hfresh Stage.noConfusion]
      exact hbuffered
  | ask hfresh hnone =>
      rw [nothing_of_stage hfresh Stage.noConfusion]
      exact hbuffered
  -- What leaves the write buffer here is what the frames of the drain carry.
  | enter hqueued hholder hfits =>
      rw [if_pos (enters_of_holder hqueued hholder)]
      exact Task.drained_append hfits
  -- A batch that is refused leaves the write buffer as it is.
  | reject hqueued hholder hnone =>
      rw [if_pos (enters_of_holder hqueued hholder), Task.drained_of_none hnone]
      rfl
  | send hsending hgoes =>
      rw [nothing_of_stage hsending Stage.noConfusion]
      rfl
  | unsent hsending hgoes =>
      rw [nothing_of_stage hsending Stage.noConfusion]
      rfl
  | sent hsending hgoes hread =>
      rw [nothing_of_stage hsending Stage.noConfusion]
      rfl
  | listen hsending hgoes hreceives =>
      rw [nothing_of_stage hsending Stage.noConfusion]
      rfl
  | receive hreceiving hheard hstill =>
      rw [nothing_of_stage hreceiving Stage.noConfusion]
      rfl
  -- What is heard goes to the read buffer, and the write buffer is left alone.
  | settle hreceiving hstill hsettles =>
      rw [nothing_of_stage hreceiving Stage.noConfusion]
      generalize c.kept (c.heard bus) = data at hsettles
      cases hsettles with
      | listen => rfl
      | finish hread => rfl
      | answer hsome => exact hbuffered
      | pause hnone => exact hbuffered
  | wake hpausing =>
      rw [nothing_of_stage hpausing Stage.noConfusion]
      rfl
  | wait hwaits =>
      rw [hwaits.enters]
      rfl
  | expire hwaits =>
      rw [hwaits.enters]
      rfl

end Call

end Multidrop
