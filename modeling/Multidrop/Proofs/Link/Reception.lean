import Mathlib.Control.Monad.Basic
import Multidrop.Link.Reception
import Multidrop.Proofs.Link.Drain

/-!
# What a Reception Leaves Alone

A reception takes bytes off the wire and counts what it takes. It queues
nothing and sends nothing, and it leaves the lock, the clock and the
configuration as they are. `Bus.Still` says so of any two moments of a bus,
and a drain that is sending leaves the same things alone apart from the
traffic it moves.

Where a reception is told whom to expect, a frame it delivers comes from
there.

## Main definitions

* `Bus.Still`: Nothing was queued, taken or sent between two moments.

## Theorems

* `Reception.step_still`: A reception moves nothing.
* `Reception.step_closes`: Only the end of a body delivers a frame.
* `Reception.step_source`: A frame that is delivered is from whom it was
  expected.
-/

namespace Multidrop

/-- Between two moments of a bus nothing was queued, taken to be sent or sent,
    and the lock, the clock and the configuration stayed as they were. -/
structure Bus.Still (b b' : Bus) : Prop where
  now : b'.now = b.now
  lock : b'.lock = b.lock
  config : b'.link.config = b.link.config
  outbound : b'.link.outbound = b.link.outbound
  inFlight : b'.link.inFlight = b.link.inFlight
  sent : b'.wire.sent = b.wire.sent

namespace Bus.Still

variable {b b' b'' : Bus}

theorem refl (b : Bus) : b.Still b :=
  ⟨rfl, rfl, rfl, rfl, rfl, rfl⟩

theorem trans (h : b.Still b') (h' : b'.Still b'') : b.Still b'' :=
  ⟨h'.now.trans h.now, h'.lock.trans h.lock, h'.config.trans h.config,
    h'.outbound.trans h.outbound, h'.inFlight.trans h.inFlight, h'.sent.trans h.sent⟩

theorem of_wire {wire : Wire} (h : wire.sent = b.wire.sent) : b.Still { b with wire } :=
  ⟨rfl, rfl, rfl, rfl, rfl, h⟩

theorem traffic (h : b.Still b') : b'.traffic = b.traffic := by
  rw [Bus.traffic, Bus.traffic, h.sent, h.inFlight, h.outbound]

end Bus.Still

namespace Reception

theorem readArrived_sent (now : Duration) (want : Nat) (wire : Wire) :
    (readArrived now want wire).2.sent = wire.sent := by
  have hsent := Wire.read_sent now want wire
  unfold readArrived
  split
  · rename_i wire' hread
    rw [hread] at hsent
    exact hsent
  · rename_i bytes wire' hread
    rw [hread] at hsent
    exact hsent
  · rename_i cause wire' hread
    rw [hread] at hsent
    split
    · exact hsent
    · exact hsent

theorem discard_sent (now : Duration) (window : Nat) (wire : Wire) :
    (discard now window wire).2.sent = wire.sent := by
  induction window using Nat.strongRecOn generalizing wire with
  | ind window ih =>
    have hsent := readArrived_sent now (min window discardChunk) wire
    rw [discard]
    split
    · rfl
    · rename_i hwindow
      split
      · rename_i cause wire' hread
        rw [hread] at hsent
        exact hsent
      · rename_i wire' hread
        rw [hread] at hsent
        exact hsent
      · rename_i byte more wire' hread
        rw [hread] at hsent
        -- The rest of the window is smaller by what was read.
        exact (ih (window - (more.length + 1)) (by omega) wire').trans hsent

theorem resynchronize_still (reason : Link.ResyncReason) (bus : Bus) :
    bus.Still (resynchronize reason bus).2 := by
  have hsent := discard_sent bus.now bus.link.config.resyncWindow bus.wire
  unfold resynchronize
  split
  · rename_i cause wire hdiscard
    rw [hdiscard] at hsent
    exact .of_wire hsent
  · rename_i discarded wire hdiscard
    rw [hdiscard] at hsent
    exact ⟨rfl, rfl, rfl, rfl, rfl, hsent⟩

/-- Sorting a frame changes what is counted and nothing else. -/
theorem sort_counts (onlyFrom : Option UInt8) (f : Frame.Received) (link : Link) :
    ∃ statistics, (sort onlyFrom f link).2 = { link with statistics } := by
  unfold sort
  by_cases hcrc : f.crcOk = true
  · simp only [if_pos hcrc]
    split
    · exact ⟨_, rfl⟩
    · split
      · exact ⟨_, rfl⟩
      · exact ⟨_, rfl⟩
  · simp only [if_neg hcrc]
    split
    · exact ⟨_, rfl⟩
    · split
      · exact ⟨_, rfl⟩
      · exact ⟨_, rfl⟩

/-- So does closing one. -/
theorem close_counts (onlyFrom : Option UInt8) (bytes : List UInt8) (bus : Bus) :
    ∃ statistics,
      (close onlyFrom bytes bus).2 = { bus with link := { bus.link with statistics } } := by
  unfold close
  split
  · rename_i e hdecode
    cases e with
    | crcMismatch computed received => exact ⟨_, rfl⟩
    | invalidMagic found => exact ⟨_, rfl⟩
    | payloadTooLarge size max => exact ⟨_, rfl⟩
    | invalidAddress address => exact ⟨_, rfl⟩
    | varuint cause => exact ⟨_, rfl⟩
  · exact ⟨_, rfl⟩
  · rename_i f hdecode
    rcases sort_counts onlyFrom f bus.link with ⟨statistics, hlink⟩
    refine ⟨statistics, ?_⟩
    simp only [hlink]

theorem close_still (onlyFrom : Option UInt8) (bytes : List UInt8) (bus : Bus) :
    bus.Still (close onlyFrom bytes bus).2 := by
  rcases close_counts onlyFrom bytes bus with ⟨statistics, hbus⟩
  rw [hbus]
  exact ⟨rfl, rfl, rfl, rfl, rfl, rfl⟩

theorem proceed_still (onlyFrom : Option UInt8) (byte : UInt8) (more : List UInt8)
    (r : Reception) (bus : Bus) : bus.Still (r.proceed onlyFrom byte more bus).2 := by
  -- Bytes are thrown away behind a header or a length that makes no sense.
  cases r with
  | header got =>
      simp only [proceed]
      split
      · exact .refl bus
      · unfold openHeader
        split
        · split
          · exact resynchronize_still _ bus
          · exact .refl bus
        · exact .refl bus
  | length got decoder =>
      simp only [proceed]
      unfold openLength
      split
      · exact .refl bus
      · exact .refl bus
      · split
        · exact resynchronize_still _ bus
        · exact .refl bus
  | body got missing =>
      simp only [proceed]
      split
      · exact close_still onlyFrom _ bus
      · exact .refl bus

/-- A turn of a reception moves nothing. -/
theorem step_still (onlyFrom : Option UInt8) (r : Reception) (bus : Bus) :
    bus.Still (r.step onlyFrom bus).2 := by
  have hsent := Wire.read_sent bus.now r.wants bus.wire
  unfold step
  split
  · rename_i wire hread
    rw [hread] at hsent
    exact .of_wire hsent
  · rename_i cause wire hread
    rw [hread] at hsent
    split
    · exact .of_wire hsent
    · exact .of_wire hsent
  · rename_i wire hread
    rw [hread] at hsent
    exact .of_wire hsent
  · rename_i byte more wire hread
    rw [hread] at hsent
    exact (Bus.Still.of_wire hsent).trans (proceed_still onlyFrom byte more r _)

/-- A frame that is sorted out for delivery stays as it is, and is from whom it
    was expected. -/
theorem sort_some {onlyFrom : Option UInt8} {f f' : Frame.Received} {link : Link}
    (h : (sort onlyFrom f link).1 = some f') :
    f' = f ∧ ∀ source, onlyFrom = some source → f.source = source := by
  unfold sort at h
  simp only [] at h
  split at h
  · simp only [reduceCtorEq] at h
  · rename_i hexpected
    split at h
    · simp only [reduceCtorEq] at h
    · rw [Option.some.injEq] at h
      refine ⟨h.symm, fun source hfrom => ?_⟩
      rw [hfrom, Option.any_some, decide_eq_true_eq, ne_eq, Decidable.not_not] at hexpected
      exact hexpected.symm

/-- A frame that is delivered is one that a reader of a buffer gets. -/
theorem close_some {onlyFrom : Option UInt8} {bytes : List UInt8} {bus : Bus}
    {f : Frame.Received} (h : (close onlyFrom bytes bus).1 = .ok (some f)) :
    (Frame.decode bus.link.config.limits bytes).1 = .ok (some f) ∧
      ∀ source, onlyFrom = some source → f.source = source := by
  unfold close at h
  split at h
  · simp only [reduceCtorEq] at h
  · simp only [Except.ok.injEq, reduceCtorEq] at h
  · rename_i f' hdecode
    rw [Except.ok.injEq] at h
    rcases sort_some h with ⟨hsame, hsource⟩
    rw [hsame]
    exact ⟨hdecode, hsource⟩

/-- Only the end of a body delivers a frame. -/
theorem step_closes {onlyFrom : Option UInt8} {r : Reception} {bus bus' : Bus}
    {f : Frame.Received} (h : r.step onlyFrom bus = (.over (.ok (some f)), bus')) :
    ∃ bytes wire, (close onlyFrom bytes { bus with wire }).1 = .ok (some f) := by
  unfold step at h
  split at h
  · simp only [Prod.mk.injEq, reduceCtorEq, false_and] at h
  · split at h
    · simp only [Prod.mk.injEq, reduceCtorEq, false_and] at h
    · simp only [Prod.mk.injEq, Turn.over.injEq, reduceCtorEq, false_and] at h
  · simp only [Prod.mk.injEq, Turn.over.injEq, reduceCtorEq, false_and] at h
  · -- A header or a length that ends a reception has given it up.
    cases r with
    | header got =>
        simp only [proceed] at h
        split at h
        · simp only [Prod.mk.injEq, reduceCtorEq, false_and] at h
        · unfold openHeader at h
          split at h
          · split at h
            · simp only [giveUp, Prod.mk.injEq, Turn.over.injEq, reduceCtorEq, false_and] at h
            · simp only [Prod.mk.injEq, reduceCtorEq, false_and] at h
          · simp only [Prod.mk.injEq, reduceCtorEq, false_and] at h
    | length got decoder =>
        simp only [proceed] at h
        unfold openLength at h
        split at h
        · simp only [Prod.mk.injEq, Turn.over.injEq, reduceCtorEq, false_and] at h
        · simp only [Prod.mk.injEq, reduceCtorEq, false_and] at h
        · split at h
          · simp only [giveUp, Prod.mk.injEq, Turn.over.injEq, reduceCtorEq, false_and] at h
          · simp only [Prod.mk.injEq, reduceCtorEq, false_and] at h
    -- Only the body can end with a frame, when no byte is missing any more.
    | body got missing =>
        simp only [proceed] at h
        split at h
        · rw [Prod.mk.injEq, Turn.over.injEq] at h
          exact ⟨_, _, h.1⟩
        · simp only [Prod.mk.injEq, reduceCtorEq, false_and] at h

/-- A frame that is delivered is from whom it was expected. -/
theorem step_source {onlyFrom : Option UInt8} {r : Reception} {bus bus' : Bus}
    {f : Frame.Received} (h : r.step onlyFrom bus = (.over (.ok (some f)), bus'))
    (source : UInt8) (hfrom : onlyFrom = some source) : f.source = source := by
  rcases step_closes h with ⟨bytes, wire, hclose⟩
  exact (close_some hclose).2 source hfrom

end Reception

end Multidrop
