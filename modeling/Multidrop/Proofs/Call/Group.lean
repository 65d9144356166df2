import Multidrop.Call
import Multidrop.Proofs.Frame.Encoding
import Multidrop.Proofs.Subframe.Stream

/-!
# What an Exchange Queues

The first thing an exchange does with the lock is to queue a group of frames:
a drain one for each chunk of what its client has buffered, a poll and a query
one that asks for an answer, a write one that does not.

A group is queued whole or not at all. Only the first frame of a drain can be
refused, since the chunks behind it are no longer than it is, and every frame
has the same addresses. So no bytes are left behind in the buffer of a client
while others of the same drain are already queued.

## Main definitions

* `Client.chunks`: Bytes cut into chunks.
* `Task.frames`: The frames of the group.
* `Frame.group`: The bytes of a group, if all of it is fit to be sent.
* `Frame.fitting`: The frames of the group in that case.
* `Link.load`: A link behind whose queue frames have been put.
* `Task.relieve`: A client whose buffered bytes have been queued.

## Theorems

* `Client.flatten_chunks`: Chunks are the bytes they are cut from.
* `Client.dataFrame_fits_of_le`: A shorter chunk fits where a longer one does.
* `Client.queueWrites_of_fits`, `Client.queueWrites_of_not_fits`: A drain
  queues all of its chunks, or none.
* `Call.enter_of_fits`, `Call.enter_of_not_fits`: What the holder of the lock
  does first.
-/

namespace Multidrop

namespace Client

/-- Bytes cut into chunks of a given size, the last of which may be
    shorter. -/
def chunks (size : Nat) (bytes : List UInt8) : List (List UInt8) :=
  if _h : bytes = [] ∨ size = 0 then []
  else bytes.take size :: chunks size (bytes.drop size)
termination_by bytes.length
decreasing_by
  have hlength : bytes.length ≠ 0 := fun h0 => _h (Or.inl (List.eq_nil_of_length_eq_zero h0))
  have hsize : size ≠ 0 := fun h0 => _h (Or.inr h0)
  simp only [List.length_drop]
  omega

@[simp]
theorem chunks_nil (size : Nat) : chunks size [] = [] := by
  rw [chunks, dif_pos (Or.inl rfl)]

theorem chunks_of_ne_nil {size : Nat} {bytes : List UInt8} (hsize : 0 < size)
    (hbytes : bytes ≠ []) :
    chunks size bytes = bytes.take size :: chunks size (bytes.drop size) := by
  rw [chunks, dif_neg]
  intro h
  rcases h with hnil | hzero
  · exact hbytes hnil
  · omega

/-- Chunks are the bytes they are cut from. -/
theorem flatten_chunks {size : Nat} (hsize : 0 < size) (bytes : List UInt8) :
    (chunks size bytes).flatten = bytes := by
  induction hlength : bytes.length using Nat.strongRecOn generalizing bytes with
  | ind length ih =>
    by_cases hbytes : bytes = []
    · rw [hbytes, chunks_nil, List.flatten_nil]
    · have hpos : 0 < bytes.length := List.length_pos_iff.mpr hbytes
      have hrest := ih (bytes.drop size).length (by rw [List.length_drop]; omega) _ rfl
      rw [chunks_of_ne_nil hsize hbytes, List.flatten_cons, hrest, List.take_append_drop]

/-- A chunk is no longer than its size, and no longer than the first one. -/
theorem length_le_of_mem_chunks {size : Nat} {bytes chunk : List UInt8}
    (h : chunk ∈ chunks size bytes) : chunk.length ≤ size ∧ chunk.length ≤ bytes.length := by
  induction hlength : bytes.length using Nat.strongRecOn generalizing bytes with
  | ind length ih =>
    by_cases hbytes : bytes = [] ∨ size = 0
    · rw [chunks, dif_pos hbytes] at h
      exact absurd h List.not_mem_nil
    · have hsize : 0 < size := Nat.pos_of_ne_zero fun h0 => hbytes (Or.inr h0)
      have hnil : bytes ≠ [] := fun h0 => hbytes (Or.inl h0)
      have hpos : 0 < bytes.length := List.length_pos_iff.mpr hnil
      rw [chunks_of_ne_nil hsize hnil, List.mem_cons] at h
      rcases h with hfirst | hlater
      · rw [hfirst, List.length_take]
        omega
      · have hrest := ih (bytes.drop size).length (by rw [List.length_drop]; omega) hlater rfl
        rw [List.length_drop] at hrest
        omega

/-- A shorter chunk fits where a longer one does. -/
theorem dataFrame_fits_of_le {c : Client} {link : Link} {x y : List UInt8}
    (h : x.length ≤ y.length) (hy : (c.dataFrame link y).Fits) :
    (c.dataFrame link x).Fits := by
  rcases hy with ⟨hsource, hpayload, hdestination⟩
  refine ⟨hsource, ?_, hdestination⟩
  -- The payload is short enough, so its data is short enough for a length field.
  have hdata := Stream.length_le_payload Subframe.toDevice c.config.channel y
  simp only [dataFrame, frame, Frame.maxPayload] at hpayload ⊢
  have hsize : y.length < UInt32.size := by
    rw [UInt32.size]
    omega
  have hle := Stream.length_payload_le Subframe.toDevice c.config.channel h hsize
  omega

end Client

namespace Frame

/-- The bytes of a group of frames. A group with a frame that is refused has
    none. -/
def group (frames : List Frame) : List UInt8 :=
  if frames.all (·.encode.isOk) then frames.flatMap encoding else []

theorem isOk_encode_iff (f : Frame) : f.encode.isOk = true ↔ f.Fits := by
  by_cases h : f.Fits
  · rw [encode_of_fits h]
    exact ⟨fun _ => h, fun _ => rfl⟩
  · rcases encode_of_not_fits h with ⟨e, he⟩
    rw [he]
    exact ⟨fun hok => absurd hok Bool.false_ne_true, fun hfits => absurd hfits h⟩

/-- The frames of a group that are queued: all of them or none. -/
def fitting (frames : List Frame) : List Frame :=
  if frames.all (·.encode.isOk) then frames else []

theorem fits_of_mem_fitting {frames : List Frame} {f : Frame} (h : f ∈ fitting frames) :
    f.Fits := by
  unfold fitting at h
  split at h
  · rename_i hall
    exact (isOk_encode_iff f).mp (List.all_eq_true.mp hall f h)
  · exact absurd h List.not_mem_nil

theorem mem_of_mem_fitting {frames : List Frame} {f : Frame} (h : f ∈ fitting frames) :
    f ∈ frames := by
  unfold fitting at h
  split at h
  · exact h
  · exact absurd h List.not_mem_nil

theorem fitting_of_fits {frames : List Frame} (h : ∀ f ∈ frames, f.Fits) :
    fitting frames = frames := by
  rw [fitting, if_pos]
  exact List.all_eq_true.mpr fun f hf => (isOk_encode_iff f).mpr (h f hf)

theorem fitting_of_not_fits {frames : List Frame} (h : ¬ ∀ f ∈ frames, f.Fits) :
    fitting frames = [] := by
  rw [fitting, if_neg]
  intro hall
  exact h fun f hf => (isOk_encode_iff f).mp (List.all_eq_true.mp hall f hf)

theorem group_eq (frames : List Frame) : group frames = (fitting frames).flatMap bytes := by
  unfold group
  by_cases hall : frames.all (·.encode.isOk) = true
  · have hfits : ∀ f ∈ frames, f.encoding = f.bytes := fun f hf =>
      encoding_of_fits ((isOk_encode_iff f).mp (List.all_eq_true.mp hall f hf))
    rw [fitting, if_pos hall, if_pos hall, List.flatMap_def, List.flatMap_def,
      List.map_congr_left hfits]
  · rw [fitting, if_neg hall, if_neg hall, List.flatMap_nil]

theorem group_of_fits {frames : List Frame} (h : ∀ f ∈ frames, f.Fits) :
    group frames = frames.flatMap bytes := by
  rw [group_eq, fitting_of_fits h]

end Frame

namespace Link

/-- A link behind whose queue frames have been put. -/
def load (frames : List Frame) (l : Link) : Link :=
  { l with
    outbound := l.outbound ++ frames.flatMap Frame.bytes
    statistics := { l.statistics with framesSent := l.statistics.framesSent + frames.length } }

theorem load_nil (l : Link) : l.load [] = l := by
  simp only [load, List.flatMap_nil, List.append_nil, List.length_nil, Nat.add_zero]

theorem load_cons (f : Frame) (frames : List Frame) (l : Link) :
    l.load (f :: frames) = (l.load [f]).load frames := by
  simp only [load, List.flatMap_cons, List.flatMap_nil, List.append_nil, List.append_assoc,
    List.length_cons, List.length_nil, Nat.zero_add, Nat.add_assoc, Nat.add_comm 1]

theorem queueFrame_of_fits {f : Frame} (h : f.Fits) (l : Link) :
    l.queueFrame f = .ok (l.load [f]) := by
  rw [queueFrame, Frame.encode_of_fits h]
  simp only [load, queue, List.flatMap_cons, List.flatMap_nil, List.append_nil, List.length_cons,
    List.length_nil, Nat.zero_add]

end Link

namespace Client

/-- A drain whose first chunk fits queues all of its chunks, and nothing stays
    behind in the buffer. By induction on what is buffered. -/
theorem queueWrites_of_fits (c : Client) (link link' : Link) (hconfig : link'.config = link.config)
    (h : ∀ f ∈ (chunks c.config.chunkSize.toNat c.writeBuffer).map (c.dataFrame link), f.Fits) :
    c.queueWrites link' = (.ok (), { c with writeBuffer := [] },
      link'.load ((chunks c.config.chunkSize.toNat c.writeBuffer).map (c.dataFrame link))) := by
  induction hlength : c.writeBuffer.length using Nat.strongRecOn generalizing c link' with
  | ind length ih =>
    have hsize := c.config.chunkSize_pos
    rw [queueWrites]
    by_cases hbuffer : c.writeBuffer = []
    · rw [dif_pos hbuffer, hbuffer, chunks_nil, List.map_nil, Link.load_nil]
      rw [← hbuffer]
    · have hpos : 0 < c.writeBuffer.length := List.length_pos_iff.mpr hbuffer
      rw [chunks_of_ne_nil hsize hbuffer, List.map_cons] at h ⊢
      -- The chunks before this one have changed the link, but not its configuration.
      have hframe : c.dataFrame link' (c.writeBuffer.take c.config.chunkSize.toNat) =
          c.dataFrame link (c.writeBuffer.take c.config.chunkSize.toNat) := by
        simp only [dataFrame, frame, hconfig]
      have hfirst := h _ List.mem_cons_self
      have hrest := ih (c.writeBuffer.drop c.config.chunkSize.toNat).length
        (by rw [List.length_drop]; omega)
        { c with writeBuffer := c.writeBuffer.drop c.config.chunkSize.toNat }
        (link'.load [c.dataFrame link (c.writeBuffer.take c.config.chunkSize.toNat)]) hconfig
        (fun f hf => h f (List.mem_cons_of_mem _ hf)) rfl
      rw [dif_neg hbuffer, Link.load_cons]
      simp only [hframe, Link.queueFrame_of_fits hfirst]
      exact hrest

/-- A drain with a chunk that does not fit queues nothing: the first chunk is
    the longest, so it does not fit either, and nothing was queued before
    it. -/
theorem queueWrites_of_not_fits (c : Client) (link : Link)
    (h : ¬ ∀ f ∈ (chunks c.config.chunkSize.toNat c.writeBuffer).map (c.dataFrame link),
      f.Fits) :
    ∃ e, c.queueWrites link = (.error e, c, link) := by
  have hsize := c.config.chunkSize_pos
  have hbuffer : c.writeBuffer ≠ [] := by
    intro hnil
    rw [hnil, chunks_nil, List.map_nil] at h
    exact h fun f hf => absurd hf List.not_mem_nil
  have hfirst : ¬ (c.dataFrame link (c.writeBuffer.take c.config.chunkSize.toNat)).Fits := by
    intro hfits
    refine h fun f hf => ?_
    rcases List.mem_map.mp hf with ⟨chunk, hchunk, hframe⟩
    -- If the longest chunk fits, so does every other.
    have hle := length_le_of_mem_chunks hchunk
    rw [← hframe]
    refine dataFrame_fits_of_le ?_ hfits
    rw [List.length_take]
    omega
  rcases Frame.encode_of_not_fits hfirst with ⟨e, hencode⟩
  refine ⟨e, ?_⟩
  rw [queueWrites, dif_neg hbuffer]
  simp only [Link.queueFrame_error.mpr hencode]

end Client

namespace Task

/-- The frames an exchange queues first. A task that is no exchange has
    none. -/
def frames (link : Link) (client : Client) : Task → List Frame
  | .drain =>
      (Client.chunks client.config.chunkSize.toNat client.writeBuffer).map (client.dataFrame link)
  | .poll => [client.pollFrame link]
  | .read _ => [client.pollFrame link]
  | .readLine => [client.pollFrame link]
  | .query request => [client.frame link request true]
  | .write request => [client.frame link request false]
  | .flush => []
  | .receive _ => []
  | .refuse _ => []

/-- The frames depend on the configuration of the link alone. -/
theorem frames_of_config {link link' : Link} (h : link'.config = link.config) (client : Client)
    (task : Task) : task.frames link' client = task.frames link client := by
  have hframe : ∀ payload requestReply,
      client.frame link' payload requestReply = client.frame link payload requestReply := by
    intro payload requestReply
    simp only [Client.frame, h]
  have hdata : client.dataFrame link' = client.dataFrame link := funext fun bytes => hframe _ _
  have hpoll : client.pollFrame link' = client.pollFrame link := hframe _ _
  cases task with
  | drain => simp only [frames, hdata]
  | poll => simp only [frames, hpoll]
  | read size => simp only [frames, hpoll]
  | readLine => simp only [frames, hpoll]
  | query request => simp only [frames, hframe]
  | write request => simp only [frames, hframe]
  | flush => rfl
  | receive source => rfl
  | refuse cause => rfl

/-- A client after its exchange has queued its frames: a drain has taken what
    was buffered. -/
def relieve (client : Client) : Task → Client
  | .drain => { client with writeBuffer := [] }
  | _ => client

end Task

namespace Call

/-- The stage at which the holder of the lock goes on when its frames are
    queued. -/
def opening (c : Call) : Stage :=
  match c.task with
  | .receive _ => .receiving none true 0 .start
  | _ => .sending .starting

variable {c : Call} {bus : Bus}

theorem sendFrame_of_fits {f : Frame} (h : f.Fits) :
    c.sendFrame f bus =
      (.again { c with stage := .sending .starting }, { bus with link := bus.link.load [f] }) := by
  rw [sendFrame, Link.queueFrame_of_fits h]
  rfl

theorem sendFrame_of_not_fits {f : Frame} (h : ¬ f.Fits) :
    ∃ e, c.sendFrame f bus =
      (.over (c.client, .error e), { bus with lock := bus.lock.release }) := by
  rcases Frame.encode_of_not_fits h with ⟨e, hencode⟩
  refine ⟨.frame e, ?_⟩
  rw [sendFrame, Link.queueFrame_error.mpr hencode]
  rfl

/-- An exchange whose frames are fit to be sent queues them all. -/
theorem enter_of_fits (hrefuse : ∀ cause, c.task ≠ .refuse cause)
    (h : ∀ f ∈ c.task.frames bus.link c.client, f.Fits) :
    c.enter bus = (.again { c with client := c.task.relieve c.client, stage := c.opening },
      { bus with link := bus.link.load (c.task.frames bus.link c.client) }) := by
  rcases c with ⟨task, client, started, limit, stage⟩
  cases task with
  | flush => simp only [enter, goTo, Task.relieve, opening, Task.frames, Link.load_nil]
  | receive source => simp only [enter, await, goTo, Task.relieve, opening, Task.frames,
      Link.load_nil, Option.all_none]
  | drain =>
      simp only [enter, sendStream]
      rw [Client.queueWrites_of_fits client bus.link bus.link rfl h]
      rfl
  | poll => exact sendFrame_of_fits (h _ List.mem_cons_self)
  | read size => exact sendFrame_of_fits (h _ List.mem_cons_self)
  | readLine => exact sendFrame_of_fits (h _ List.mem_cons_self)
  | query request => exact sendFrame_of_fits (h _ List.mem_cons_self)
  | write request => exact sendFrame_of_fits (h _ List.mem_cons_self)
  | refuse cause => exact absurd rfl (hrefuse cause)

/-- An exchange with a frame that is refused ends, with nothing queued and
    nothing taken from the buffers of its client. -/
theorem enter_of_not_fits (h : ¬ ∀ f ∈ c.task.frames bus.link c.client, f.Fits) :
    ∃ e, c.enter bus =
      (.over (c.client, .error e), { bus with lock := bus.lock.release }) := by
  rcases c with ⟨task, client, started, limit, stage⟩
  cases task with
  | flush => exact absurd (fun f hf => absurd hf List.not_mem_nil) h
  | receive source => exact absurd (fun f hf => absurd hf List.not_mem_nil) h
  | drain =>
      rcases Client.queueWrites_of_not_fits client bus.link h with ⟨e, hqueue⟩
      refine ⟨.frame e, ?_⟩
      simp only [enter, sendStream, hqueue, handOn, finish]
  | poll => exact sendFrame_of_not_fits fun hf => h (List.forall_mem_singleton.mpr hf)
  | read size => exact sendFrame_of_not_fits fun hf => h (List.forall_mem_singleton.mpr hf)
  | readLine => exact sendFrame_of_not_fits fun hf => h (List.forall_mem_singleton.mpr hf)
  | query request => exact sendFrame_of_not_fits fun hf => h (List.forall_mem_singleton.mpr hf)
  | write request => exact sendFrame_of_not_fits fun hf => h (List.forall_mem_singleton.mpr hf)
  | refuse cause => exact ⟨_, rfl⟩

end Call

end Multidrop
