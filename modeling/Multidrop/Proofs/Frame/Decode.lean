import Multidrop.Proofs.Frame.Encoding
import Multidrop.Proofs.Frame.Feeding

/-!
# Frames That Are Read Back

A frame that is fit to be sent is read back from its bytes, with a checksum
that matches, and what follows it is left alone. A frame that is cut short is
not complete. So a reader of any part of a run of frames, from its start, gets
the frames that are there whole and then waits for the rest of the next one.

How much a reader accepts matters only where it is less than what the frames
carry, and whether it minds a checksum that does not match does not matter at
all.

## Main definitions

* `Passes`: A frame that is fit to be sent and that a reader accepts.
* `form`: The parts of the bytes of a frame.
* `arrived`: A frame as a reader gets it.
* `decoded`: The frames a strict reader finds in some bytes.

## Theorems

* `decode_bytes`: A frame is read back from its bytes.
* `decode_cut`: A frame that is cut short is not complete.
* `decoded_flatMap`: A reader finds all frames of a run.
* `decoded_of_prefix`: What a reader finds in a part of a run.
* `run_read_back`: A run of frames is written and read back.
-/

namespace Multidrop

namespace Frame

/-- A frame that is fit to be sent, and no longer than a reader accepts. -/
def Passes (limits : Limits) (f : Frame) : Prop :=
  f.Fits ∧ f.payload.length ≤ limits.maxPayload

instance (limits : Limits) (f : Frame) : Decidable (f.Passes limits) :=
  inferInstanceAs (Decidable (_ ∧ _))

/-- The checksum of a frame that is fit to be sent. -/
def checksum (f : Frame) : UInt16 :=
  Checksum.crc16 (covered f.sourceByte f.destination f.payload)

/-- The parts of the bytes of a frame. -/
def form (f : Frame) : Form where
  source := f.sourceByte
  destination := f.destination
  length := Varuint.encode f.payload.length.toUInt32
  payload := f.payload
  crcLow := f.checksum.toUInt8
  crcHigh := (f.checksum >>> 8).toUInt8

/-- A frame as a reader gets it. -/
def arrived (f : Frame) : Received where
  toFrame := f
  crc := f.checksum
  crcOk := true

/-- The frame a call delivers. -/
def delivered : Except Error (Option Received) → Option Received
  | .ok f => f
  | .error _ => none

/-- The frames a strict reader finds in some bytes. -/
def decoded (bytes : List UInt8) : List Received :=
  (decodeAll { crcPolicy := .enforce } bytes).1.filterMap (delivered ∘ Call.result)

/-- The bits of an address, with the flag and without. -/
theorem address_bits : ∀ n < 128, UInt8.ofNat n &&& broadcast = UInt8.ofNat n ∧
    UInt8.ofNat n &&& replyFlag = 0 ∧
    (UInt8.ofNat n ||| replyFlag) &&& broadcast = UInt8.ofNat n ∧
    (UInt8.ofNat n ||| replyFlag) &&& replyFlag ≠ 0 := by
  decide

theorem bits_of_le {address : UInt8} (h : address ≤ broadcast) :
    address &&& broadcast = address ∧ address &&& replyFlag = 0 ∧
      (address ||| replyFlag) &&& broadcast = address ∧
      (address ||| replyFlag) &&& replyFlag ≠ 0 := by
  have hlt : address.toNat < 128 := Nat.lt_succ_of_le (UInt8.le_iff_toNat_le.mp h)
  have hbits := address_bits address.toNat hlt
  rw [UInt8.ofNat_toNat] at hbits
  exact hbits

/-- What a reader sees in the parts of a frame is the frame. -/
theorem ofParts_eq {f : Frame} (h : f.Fits) (crc : UInt16) :
    Received.ofParts f.sourceByte f.destination f.payload crc crc =
      { toFrame := f, crc, crcOk := true } := by
  rcases bits_of_le h.1 with ⟨hsource, hnone, hflagged, hflag⟩
  rcases f with ⟨source, destination, payload, requestReply⟩
  simp only [Received.ofParts, (bits_of_le h.2.2).1, beq_self_eq_true, sourceByte] at *
  cases requestReply with
  | false => simp only [Bool.false_eq_true, if_false, hsource, hnone, bne_self_eq_false]
  | true => simp only [if_true, hflagged, bne_iff_ne.mpr hflag]

theorem body_form (f : Frame) :
    f.form.body = covered f.sourceByte f.destination f.payload := by
  have hmagic : Byte.le16 magic = [0x54, 0xab] := by decide
  simp only [Form.body, form, covered, hmagic, List.cons_append, List.nil_append]

/-- The bytes of a frame are those that have its parts. -/
theorem bytes_form (f : Frame) : f.form.bytes = f.bytes := by
  rw [Form.bytes, body_form, bytes, layout]
  rfl

theorem crc_form (f : Frame) : f.form.crc = f.checksum :=
  Byte.ofLe16_le16 f.checksum

theorem computed_form (f : Frame) : f.form.computed = f.checksum := by
  rw [Form.computed, body_form, checksum]

theorem length_lt_size {f : Frame} (h : f.Fits) : f.payload.length < UInt32.size :=
  Nat.lt_of_le_of_lt h.2.1 (by decide)

theorem toNat_length {f : Frame} (h : f.Fits) :
    f.payload.length.toUInt32.toNat = f.payload.length :=
  UInt32.toNat_ofNat_of_lt' (length_lt_size h)

theorem passes_of_fits {limits : Limits} (hlimits : maxPayload ≤ limits.maxPayload) {f : Frame}
    (h : f.Fits) : f.Passes limits :=
  ⟨h, Nat.le_trans h.2.1 hlimits⟩

variable {limits : Limits}

theorem accepted_form {f : Frame} (h : f.Passes limits) : f.form.Accepted limits := by
  have hvalue : Varuint.value f.form.length = f.payload.length := by
    rw [form, Varuint.encode, Varuint.value_groups, toNat_length h.1]
  refine ⟨⟨Varuint.closed_groups _, Varuint.length_encode_le _, ?_, ?_⟩, hvalue⟩
  · rw [hvalue]
    exact length_lt_size h.1
  · rw [hvalue]
    exact h.2

theorem frame_form {f : Frame} (h : f.Fits) : f.form.frame = f.arrived := by
  rw [Form.frame, computed_form, crc_form]
  exact ofParts_eq h f.checksum

/-- What a reader says to a frame does not depend on what it does about
    checksums. -/
theorem verdict_form {f : Frame} (h : f.Fits) : f.form.verdict limits = .ok f.arrived := by
  rw [Form.verdict, frame_form h, crc_form, computed_form]
  cases limits.crcPolicy with
  | ignore => rfl
  | enforce => exact if_pos rfl

/-- A frame is read back from its bytes, and what follows them is left. -/
theorem decode_bytes {f : Frame} (h : f.Passes limits) (rest : List UInt8) :
    decode limits (f.bytes ++ rest) = (.ok (some f.arrived), rest) := by
  have hdecode := decode_form (accepted_form h) rest
  rw [bytes_form, verdict_form h.1] at hdecode
  exact hdecode

/-- A frame that is cut short is not complete, and is left for when more of it
    is there. Anything else that a call could say to a part of it, it would
    also say to the whole. -/
theorem decode_cut {f : Frame} (h : f.Passes limits) {part missing : List UInt8}
    (hpart : f.bytes = part ++ missing) (hmissing : missing ≠ []) :
    decode limits part = (.ok none, part) := by
  have hwhole := decode_bytes h []
  rw [List.append_nil, hpart] at hwhole
  cases decodes limits part with
  | whole p rest hbuffer h =>
      rw [hbuffer, List.append_assoc, decode_form h, Prod.mk.injEq,
        List.append_eq_nil_iff] at hwhole
      exact absurd hwhole.2.2 hmissing
  | incomplete h => exact decode_incomplete h
  | refused e h =>
      rw [decode_refused (h.append missing)] at hwhole
      simp only [Prod.mk.injEq, reduceCtorEq, false_and] at hwhole

/-- Where a run of frames is cut: some frames are there whole, and what is
    behind them is not the whole of the next one. -/
theorem cut_flatMap {frames : List Frame} {part : List UInt8}
    (h : part <+: frames.flatMap bytes) :
    ∃ whole later rest, frames = whole ++ later ∧ part = whole.flatMap bytes ++ rest ∧
      (rest = [] ∨ ∃ f ∈ later, ∃ missing, missing ≠ [] ∧ f.bytes = rest ++ missing) := by
  induction frames generalizing part with
  | nil => exact ⟨[], [], [], rfl, List.prefix_nil.mp h, Or.inl rfl⟩
  | cons f frames ih =>
      rw [List.flatMap_cons] at h
      rcases h with ⟨missing, hpart⟩
      -- The cut is in the first frame, or right behind it, or in those after it.
      rcases List.append_eq_append_iff.mp hpart with ⟨cut, hcut, _⟩ | ⟨after, hafter, hrest⟩
      · by_cases hnil : cut = []
        · rw [hnil, List.append_nil] at hcut
          refine ⟨[f], frames, [], rfl, ?_, Or.inl rfl⟩
          rw [← hcut, List.flatMap_singleton, List.append_nil]
        · exact ⟨[], f :: frames, part, rfl, rfl,
            Or.inr ⟨f, List.mem_cons_self, cut, hnil, hcut⟩⟩
      · rcases ih ⟨missing, hrest.symm⟩ with ⟨whole, later, rest, hframes, hpart', hcut⟩
        refine ⟨f :: whole, later, rest, ?_, ?_, hcut⟩
        · rw [hframes, List.cons_append]
        · rw [hafter, hpart', List.flatMap_cons, List.append_assoc]

/-- A reader takes whole frames one by one, and stops at one that is not
    complete. By induction on the frames. -/
theorem decodeAll_flatMap {whole : List Frame} (hpasses : ∀ f ∈ whole, f.Passes limits)
    {rest : List UInt8} (hrest : decode limits rest = (.ok none, rest)) :
    (decodeAll limits (whole.flatMap bytes ++ rest)).1.map Call.result =
        whole.map (fun f => .ok (some f.arrived)) ++ [.ok none] ∧
      (decodeAll limits (whole.flatMap bytes ++ rest)).2 = rest := by
  induction whole with
  | nil =>
      rw [List.flatMap_nil, List.nil_append, decodeAll_of_left hrest]
      exact ⟨rfl, rfl⟩
  | cons f whole ih =>
      have hpass := hpasses f List.mem_cons_self
      rcases ih fun g hg => hpasses g (List.mem_cons_of_mem _ hg) with ⟨hcalls, hleft⟩
      -- The reader goes on because it has got further.
      rw [List.flatMap_cons, List.append_assoc, ← bytes_form,
        decodeAll_form (accepted_form hpass), verdict_form hpass.1, List.map_cons, hcalls, hleft]
      exact ⟨rfl, rfl⟩

theorem decode_nil (limits : Limits) : decode limits [] = (.ok none, []) := rfl

theorem filterMap_delivered {calls : List Call} {frames : List Frame}
    (h : calls.map Call.result = frames.map (fun f => .ok (some f.arrived)) ++ [.ok none]) :
    calls.filterMap (delivered ∘ Call.result) = frames.map arrived := by
  rw [← List.filterMap_map, h, List.filterMap_append, List.filterMap_map]
  simp only [List.filterMap_cons, List.filterMap_nil, delivered, List.append_nil]
  rw [← List.filterMap_eq_map]
  rfl

/-- A strict reader finds all frames of a run. -/
theorem decoded_flatMap {frames : List Frame} (hfits : ∀ f ∈ frames, f.Fits) :
    decoded (frames.flatMap bytes) = frames.map arrived := by
  have hpasses : ∀ f ∈ frames, f.Passes { crcPolicy := .enforce } := fun f hf =>
    passes_of_fits (Nat.le_refl _) (hfits f hf)
  have hcalls := (decodeAll_flatMap hpasses (decode_nil _)).1
  rw [List.append_nil] at hcalls
  rw [decoded, filterMap_delivered hcalls]

/-- A strict reader finds the frames of a run, and then goes on behind them. -/
theorem decoded_append {frames : List Frame} (hfits : ∀ f ∈ frames, f.Fits) (rest : List UInt8) :
    decoded (frames.flatMap bytes ++ rest) = frames.map arrived ++ decoded rest := by
  induction frames with
  | nil => rfl
  | cons f frames ih =>
      have hpasses : f.Passes { crcPolicy := .enforce } :=
        passes_of_fits (Nat.le_refl _) (hfits f List.mem_cons_self)
      have hrest := ih fun g hg => hfits g (List.mem_cons_of_mem _ hg)
      rw [decoded] at hrest ⊢
      rw [List.flatMap_cons, List.append_assoc, ← bytes_form,
        decodeAll_form (accepted_form hpasses), verdict_form hpasses.1]
      exact congrArg (f.arrived :: ·) hrest

/-- What a strict reader finds in a part of a run of frames: those that are
    there whole, and then none that is complete. -/
theorem decoded_of_prefix {frames : List Frame} (hfits : ∀ f ∈ frames, f.Fits)
    {part : List UInt8} (h : part <+: frames.flatMap bytes) :
    ∃ whole later, frames = whole ++ later ∧ decoded part = whole.map arrived ∧
      (decodeAll { crcPolicy := .enforce } part).1.map Call.result =
        (decoded part).map (fun f => .ok (some f)) ++ [.ok none] := by
  rcases cut_flatMap h with ⟨whole, later, rest, hframes, hpart, hcut⟩
  have hpasses : ∀ f ∈ frames, f.Passes { crcPolicy := .enforce } := fun f hf =>
    passes_of_fits (Nat.le_refl _) (hfits f hf)
  have hwhole : ∀ f ∈ whole, f.Passes { crcPolicy := .enforce } := fun f hf =>
    hpasses f (by rw [hframes]; exact List.mem_append_left _ hf)
  -- Behind the frames that are whole there is nothing, or a frame that is cut off.
  have hrest : decode { crcPolicy := .enforce } rest = (.ok none, rest) := by
    rcases hcut with hnil | ⟨f, hf, missing, hmissing, hbytes⟩
    · rw [hnil]
      exact decode_nil _
    · have hpass := hpasses f (by rw [hframes]; exact List.mem_append_right _ hf)
      exact decode_cut hpass hbytes hmissing
  have hcalls := (decodeAll_flatMap hwhole hrest).1
  rw [← hpart] at hcalls
  have hdecoded : decoded part = whole.map arrived := filterMap_delivered hcalls
  refine ⟨whole, later, hframes, hdecoded, ?_⟩
  rw [hcalls, hdecoded, List.map_map]
  rfl

/-- A run of frames is written and read back. A frame that is fit to be sent
    is put behind the bytes of a buffer, with as many bytes as its size says
    and the same ones behind any other buffer; one that is not leaves the
    buffer as it was. A reader that accepts the payloads of a run of frames
    gets them all back in order from their bytes, each with a checksum that
    matches, and then waits if the next one is cut short, with that part of
    it left in the buffer. -/
theorem run_read_back (limits : Limits) (frames : List Frame) :
    (∀ f : Frame, f.Fits → f.bytes.length = wireSize f.payload ∧
      ∀ buffer, f.appendTo buffer = (buffer ++ f.bytes, .ok ())) ∧
    (∀ f : Frame, ¬ f.Fits → ∀ buffer, ∃ e, f.appendTo buffer = (buffer, .error e)) ∧
    (∀ buffer, (∀ f ∈ frames, f.Fits) →
      frames.foldl (fun buffer f => (f.appendTo buffer).1) buffer =
        buffer ++ frames.flatMap bytes) ∧
    (∀ next part missing, (∀ f ∈ next :: frames, f.Fits ∧ f.payload.length ≤ limits.maxPayload) →
      next.bytes = part ++ missing → missing ≠ [] →
        let calls := decodeAll limits (frames.flatMap bytes ++ part)
        calls.1.map Call.result = frames.map (fun f => .ok (some f.arrived)) ++ [.ok none] ∧
          calls.2 = part) := by
  have happend : ∀ f : Frame, f.Fits → ∀ buffer,
      f.appendTo buffer = (buffer ++ f.bytes, .ok ()) := by
    intro f hfits buffer
    rw [appendTo_eq, encode_of_fits hfits]
  refine ⟨fun f hfits => ⟨f.length_bytes, happend f hfits⟩, ?_, ?_, ?_⟩
  · intro f hfits buffer
    rcases encode_of_not_fits hfits with ⟨e, hencode⟩
    refine ⟨e, ?_⟩
    rw [appendTo_eq, hencode]
  · -- On the frames, each behind what is in the buffer already.
    intro buffer hfits
    induction frames generalizing buffer with
    | nil => rw [List.foldl_nil, List.flatMap_nil, List.append_nil]
    | cons f frames ih =>
        rw [List.foldl_cons, happend f (hfits f List.mem_cons_self),
          ih _ fun g hg => hfits g (List.mem_cons_of_mem _ hg), List.flatMap_cons,
          List.append_assoc]
  · intro next part missing hpasses hpart hmissing
    have hcut := decode_cut (hpasses next List.mem_cons_self) hpart hmissing
    exact decodeAll_flatMap (fun f hf => hpasses f (List.mem_cons_of_mem _ hf)) hcut

end Frame

end Multidrop
