import Multidrop.Proofs.Call.Stream

/-!
# Clients That Can Send

A client is let in if its device has an address and a full chunk fits in a
frame. What such a client buffers can always be sent: the chunks of a drain
are no longer than a full one, and a poll has no data at all.

The size of a full chunk is a checked sum in 64 bits. Close to the end of their
range the sum does not fit, and whoever asks for a client with such a chunk is
stopped instead of refused.

## Main definitions

* `Config.FullChunkFits`: A full chunk fits in a frame.
* `Config.Overflows`: The size of a full chunk does not fit in 64 bits.
* `Creates`: All that can come of asking for a client.
* `Carries`: A link takes whatever a client has to send.

## Theorems

* `create_creates`: What is said here of creating clients is all it can do.
* `create_iff`: Which clients are let in.
* `create_overflow_iff`: Where there is no answer.
* `carries_of_fits`: A client whose full chunk fits can send.
-/

namespace Multidrop

/-- The bytes a stream sub-frame takes are those in front of its data, and its
    data. -/
theorem Stream.length_payload (id channel : UInt32) (data : List UInt8) :
    (payload id channel data).length =
      headerSize id channel data.length.toUInt32 + data.length := by
  simp only [payload, headerSize, List.length_append, Varuint.length_encode]

/-- Three numbers take at most five bytes each. -/
theorem Stream.headerSize_le (id channel length : UInt32) : headerSize id channel length ≤ 15 := by
  have hid := Varuint.length_encode_le id
  have hchannel := Varuint.length_encode_le channel
  have hlength := Varuint.length_encode_le length
  simp only [Varuint.length_encode, Varuint.maxSize] at hid hchannel hlength
  rw [headerSize]
  omega

namespace Client

/-- A stream sub-frame with a full chunk, of at least one byte, is a payload
    that a frame may carry. -/
def Config.FullChunkFits (c : Config) : Prop :=
  ∀ data : List UInt8, data.length = max 1 c.maxChunk.toNat →
    (Stream.payload Subframe.toDevice c.channel data).length ≤ Frame.maxPayload

/-- The size of a sub-frame with a full chunk does not fit in 64 bits. -/
def Config.Overflows (c : Config) : Prop :=
  UInt64.size ≤ Stream.headerSize Subframe.toDevice c.channel c.announced + c.chunkSize.toNat

instance (c : Config) : Decidable c.Overflows :=
  inferInstanceAs (Decidable (_ ≤ _))

variable {c : Client} {config : Config} {link : Link} {data : List UInt8}

/-- The sum fails where the size does not fit. -/
theorem Config.maxStreamPayload_eq_none_iff :
    config.maxStreamPayload = none ↔ config.Overflows := by
  simp only [maxStreamPayload, Overflows]
  split
  · rename_i hfits
    exact iff_of_false nofun (Nat.not_le.mpr hfits)
  · rename_i hfits
    exact iff_of_true rfl (Nat.not_lt.mp hfits)

/-- Where it fits, the size is the sum. -/
theorem Config.eq_of_maxStreamPayload {size : Nat} (h : config.maxStreamPayload = some size) :
    size = Stream.headerSize Subframe.toDevice config.channel config.announced +
      config.chunkSize.toNat := by
  simp only [maxStreamPayload] at h
  split at h
  · exact (Option.some.inj h).symm
  · exact absurd h nofun

/-- A chunk that a length can announce is announced as it is. -/
theorem Config.announced_toNat (h : config.chunkSize.toNat < UInt32.size) :
    config.announced = config.chunkSize.toNat.toUInt32 := by
  have hle : config.chunkSize ≤ 0xffffffff := by
    rw [UInt64.le_iff_toNat_le]
    exact Nat.le_of_lt_succ h
  rw [announced, if_pos hle, ← UInt32.toNat_inj, UInt64.toNat_toUInt32, Nat.toUInt32,
    UInt32.toNat_ofNat']

/-- The size that is computed says whether a full chunk fits. -/
theorem Config.fullChunkFits_iff {size : Nat} (h : config.maxStreamPayload = some size) :
    config.FullChunkFits ↔ size ≤ Frame.maxPayload := by
  rw [eq_of_maxStreamPayload h]
  by_cases hannounced : config.chunkSize.toNat < UInt32.size
  · constructor
    · -- All payloads of a full chunk are of one length, so one of zeros decides.
      intro hfits
      have hfull := hfits (List.replicate config.chunkSize.toNat 0)
        (by rw [List.length_replicate, chunkSize_toNat])
      rw [Stream.length_payload, List.length_replicate, ← announced_toNat hannounced] at hfull
      exact hfull
    · intro hle data hdata
      rw [← chunkSize_toNat] at hdata
      rw [Stream.length_payload, hdata, ← announced_toNat hannounced]
      exact hle
  · -- Such a chunk alone is longer than any payload.
    have hlong : Frame.maxPayload < config.chunkSize.toNat :=
      Nat.lt_of_lt_of_le (by decide) (Nat.not_lt.mp hannounced)
    constructor
    · intro hfits
      have hfull := hfits (List.replicate config.chunkSize.toNat 0)
        (by rw [List.length_replicate, chunkSize_toNat])
      have hdata := Stream.length_le_payload Subframe.toDevice config.channel
        (List.replicate config.chunkSize.toNat 0)
      rw [List.length_replicate] at hdata
      omega
    · intro hle
      omega

/-- A chunk that makes the sum overflow is far too long for a frame. -/
theorem Config.Overflows.not_fullChunkFits (h : config.Overflows) : ¬ config.FullChunkFits := by
  intro hfits
  have hheader := Stream.headerSize_le Subframe.toDevice config.channel config.announced
  have hfull := hfits (List.replicate config.chunkSize.toNat 0)
    (by rw [List.length_replicate, chunkSize_toNat])
  have hdata := Stream.length_le_payload Subframe.toDevice config.channel
    (List.replicate config.chunkSize.toNat 0)
  rw [List.length_replicate] at hdata
  simp only [Overflows, UInt64.size, Frame.maxPayload] at h hfull
  omega

/-- All that can come of asking for a client. -/
inductive Creates (destination : UInt8) (config : Config) : Except Failure Client → Prop where
  /-- The device has no address. -/
  | unaddressed (h : Frame.broadcast < destination) :
      Creates destination config (.error (.refused (.frame (.invalidAddress destination))))
  /-- A full chunk does not fit in a frame. -/
  | tooLarge {size : Nat} (hdestination : destination ≤ Frame.broadcast)
      (hsize : config.maxStreamPayload = some size) (hfits : ¬ config.FullChunkFits) :
      Creates destination config
        (.error (.refused (.frame (.payloadTooLarge size Frame.maxPayload))))
  /-- Its size does not even fit in 64 bits. -/
  | overflow (hdestination : destination ≤ Frame.broadcast) (h : config.Overflows) :
      Creates destination config (.error .overflow)
  | created (hdestination : destination ≤ Frame.broadcast) (hfits : config.FullChunkFits) :
      Creates destination config (.ok { destination, config })

theorem create_creates (destination : UInt8) (config : Config) :
    Creates destination config (create destination config) := by
  rw [create]
  split
  · rename_i hdestination
    exact .unaddressed hdestination
  · rename_i hdestination
    have haddress : destination ≤ Frame.broadcast := UInt8.not_lt.mp hdestination
    cases hsize : config.maxStreamPayload with
    | none => exact .overflow haddress (Config.maxStreamPayload_eq_none_iff.mp hsize)
    | some size =>
        -- The sum exists, and it is compared with the payload of a frame.
        have hfits := Config.fullChunkFits_iff hsize
        simp only
        split
        · rename_i hlarge
          exact .tooLarge haddress hsize fun h => Nat.not_le.mpr hlarge (hfits.mp h)
        · rename_i hlarge
          exact .created haddress (hfits.mpr (Nat.not_lt.mp hlarge))

/-- A client is let in exactly if its device has an address and a full chunk fits in
    a frame. -/
theorem create_iff (destination : UInt8) (config : Config) :
    (∃ c, create destination config = .ok c) ↔
      destination ≤ Frame.broadcast ∧ config.FullChunkFits := by
  have hcreates := create_creates destination config
  generalize create destination config = result at hcreates
  cases hcreates with
  | unaddressed h =>
      exact iff_of_false (fun ⟨_, hok⟩ => absurd hok nofun) fun hd =>
        absurd hd.1 (UInt8.not_le.mpr h)
  | tooLarge _ _ hfits =>
      exact iff_of_false (fun ⟨_, hok⟩ => absurd hok nofun) fun h => hfits h.2
  | overflow _ h =>
      exact iff_of_false (fun ⟨_, hok⟩ => absurd hok nofun) fun hd => h.not_fullChunkFits hd.2
  | created hdestination hfits => exact iff_of_true ⟨_, rfl⟩ ⟨hdestination, hfits⟩

/-- There is no answer exactly if the device has an address and the size of a full
    chunk does not fit in 64 bits. -/
theorem create_overflow_iff (destination : UInt8) (config : Config) :
    create destination config = .error .overflow ↔
      destination ≤ Frame.broadcast ∧ config.Overflows := by
  have hcreates := create_creates destination config
  generalize create destination config = result at hcreates
  cases hcreates with
  | unaddressed h => exact iff_of_false nofun fun hd => absurd hd.1 (UInt8.not_le.mpr h)
  | tooLarge _ hsize _ =>
      refine iff_of_false nofun fun h => ?_
      rw [← Config.maxStreamPayload_eq_none_iff, hsize] at h
      exact absurd h.2 nofun
  | overflow hdestination h => exact iff_of_true rfl ⟨hdestination, h⟩
  | created _ hfits => exact iff_of_false nofun fun h => h.2.not_fullChunkFits hfits

/-- What a client has to send at most is queued on a link: any bytes it may have
    buffered, and a poll. -/
structure Carries (link : Link) (c : Client) : Prop where
  writes : ∀ buffer, { c with writeBuffer := buffer }.queueWrites link =
    (.ok (), { c with writeBuffer := [] },
      link.load (Task.frames link { c with writeBuffer := buffer } .drain))
  polls : link.queueFrame (c.pollFrame link) = .ok (link.load [c.pollFrame link])

/-- A chunk that is not longer than a full one fits. -/
theorem dataFrame_fits (hsource : link.config.source ≤ Frame.broadcast)
    (hdestination : c.destination ≤ Frame.broadcast) (hfits : c.config.FullChunkFits)
    (hlength : data.length ≤ c.config.chunkSize.toNat) : (c.dataFrame link data).Fits := by
  have hfull : (List.replicate c.config.chunkSize.toNat (0 : UInt8)).length =
      c.config.chunkSize.toNat := List.length_replicate
  have hpayload := hfits (List.replicate c.config.chunkSize.toNat 0)
    (hfull.trans c.config.chunkSize_toNat)
  exact dataFrame_fits_of_le (Nat.le_trans hlength (Nat.le_of_eq hfull.symm))
    ⟨hsource, hpayload, hdestination⟩

theorem frames_fit (hsource : link.config.source ≤ Frame.broadcast)
    (hdestination : c.destination ≤ Frame.broadcast) (hfits : c.config.FullChunkFits)
    {task : Task} (htask : task = .drain ∨ task.polls = true) :
    ∀ f ∈ task.frames link c, f.Fits := by
  -- A poll has the payload of a chunk without data.
  have hpoll : ∀ f ∈ [c.pollFrame link], f.Fits := by
    intro f hf
    have hempty : ([] : List UInt8).length ≤ c.config.chunkSize.toNat := Nat.zero_le _
    rw [List.mem_singleton.mp hf]
    exact dataFrame_fits hsource hdestination hfits hempty
  cases task with
  | drain =>
      intro f hf
      rcases List.mem_map.mp hf with ⟨chunk, hchunk, hframe⟩
      rw [← hframe]
      exact dataFrame_fits hsource hdestination hfits (length_le_of_mem_chunks hchunk).1
  | poll => exact hpoll
  | read size => exact hpoll
  | readLine => exact hpoll
  | _ => exact htask.elim (fun h => absurd h nofun) fun h => absurd h Bool.false_ne_true

/-- A client whose full chunk fits can send whatever it has buffered, over any
    link that has an address. -/
theorem carries_of_fits (hsource : link.config.source ≤ Frame.broadcast)
    (hdestination : c.destination ≤ Frame.broadcast) (hfits : c.config.FullChunkFits) :
    c.Carries link := by
  constructor
  · intro buffer
    let c' : Client := { c with writeBuffer := buffer }
    have hframes : ∀ f ∈ Task.frames link c' .drain, f.Fits :=
      frames_fit (c := c') hsource hdestination hfits (Or.inl rfl)
    exact queueWrites_of_fits c' link link rfl hframes
  · have hframes : ∀ f ∈ Task.frames link c .poll, f.Fits :=
      frames_fit hsource hdestination hfits (Or.inr rfl)
    exact Link.queueFrame_of_fits (hframes _ (List.mem_singleton.mpr rfl)) link

end Client

end Multidrop
