import Multidrop.Link.Drain
import Multidrop.Proofs.Wire

/-!
# Turns of a Drain

Everything a turn of a drain can do, said once. A turn moves bytes along the
way from the queue over the flight to the wire and does nothing else with
them: `Bus.traffic` reads that way from its end to its start, and no turn
changes what is read.

How far a drain has come says what is behind it. Once it sends, what was
queued at its start is in flight or sent; once it flushes, all of that is
sent. `Drain.Behind` is that statement for any bytes that were queued in time,
and it survives whatever else is done on the bus meanwhile, since the wire and
the flight behind it only ever grow at their ends.

## Main definitions

* `Bus.traffic`: What was sent, what is in flight and what is queued.
* `Bus.Grows`: What was sent, and what is in flight behind it, grew.
* `Drain.Goes`: Everything a turn of a drain can do.
* `Drain.Behind`: What a drain has seen to.

## Theorems

* `Drain.step_goes`: A turn does one of these things.
* `Drain.Goes.traffic`: A turn loses, adds and reorders nothing.
* `Drain.Goes.grows`: A turn only moves bytes forward.
* `Drain.Goes.bytesSent`: A turn counts what the wire accepts.
* `Drain.Goes.behind`: What a drain has seen to stays seen to.
* `Drain.Goes.ok`: A drain that succeeds ends with a flush that succeeds.
-/

namespace Multidrop

namespace Bus

/-- What was sent, what is in flight and what is queued, in the order in which
    it reaches the wire. -/
def traffic (b : Bus) : List UInt8 :=
  b.wire.sent ++ b.link.inFlight ++ b.link.outbound

/-- Between two moments, what was sent grew, and so did what was sent together
    with what is in flight. -/
def Grows (b b' : Bus) : Prop :=
  b.wire.sent <+: b'.wire.sent ∧
    b.wire.sent ++ b.link.inFlight <+: b'.wire.sent ++ b'.link.inFlight

theorem Grows.of_eq {b b' : Bus} (hsent : b'.wire.sent = b.wire.sent)
    (hflight : b'.link.inFlight = b.link.inFlight) : b.Grows b' := by
  rw [Grows, hsent, hflight]
  exact ⟨List.prefix_refl _, List.prefix_refl _⟩

end Bus

namespace Drain

/-- Everything a turn of a drain can do. -/
inductive Goes (bus : Bus) : Drain → Turn Drain (Except Link.Error Unit) × Bus → Prop where
  /-- What is queued comes behind what is in flight. -/
  | take : Goes bus .starting (.again .sending, { bus with link := bus.link.takeOutbound })
  /-- Nothing is left to send. -/
  | empty (hempty : bus.link.inFlight = []) : Goes bus .sending (.again .flushing, bus)
  /-- The wire accepts some of what is in flight. -/
  | accepted {count : Nat} {wire : Wire} (hle : count ≤ bus.link.inFlight.length)
      (hsent : wire.sent = bus.wire.sent ++ bus.link.inFlight.take count) :
      Goes bus .sending (.again .sending, { bus with wire, link := bus.link.accepted count })
  /-- The wire accepts nothing. -/
  | refused {turn : Turn Drain (Except Link.Error Unit)} {wire : Wire}
      (hsent : wire.sent = bus.wire.sent)
      (hturn : turn = .again .sending ∨ turn = .waiting ∨ ∃ e, turn = .over (.error e)) :
      Goes bus .sending (turn, { bus with wire })
  /-- The wire is flushed. -/
  | flushed {wire : Wire} (hsent : wire.sent = bus.wire.sent)
      (hflush : bus.wire.flush bus.now = (.ready (), wire)) :
      Goes bus .flushing (.over (.ok ()), { bus with wire })
  /-- The wire is not flushed. -/
  | unflushed {turn : Turn Drain (Except Link.Error Unit)} {wire : Wire}
      (hsent : wire.sent = bus.wire.sent)
      (hturn : turn = .again .flushing ∨ turn = .waiting ∨ ∃ e, turn = .over (.error e)) :
      Goes bus .flushing (turn, { bus with wire })

variable {bus bus' : Bus} {d d' : Drain}

theorem offer_goes (bus : Bus) : Goes bus .sending (offer bus) := by
  unfold offer
  split
  · rename_i wire hwrite
    exact .refused (Wire.write_waiting hwrite) (Or.inr (Or.inl rfl))
  · rename_i cause wire hwrite
    split
    · exact .refused (Wire.write_failed hwrite) (Or.inl rfl)
    · exact .refused (Wire.write_failed hwrite) (Or.inr (Or.inr ⟨_, rfl⟩))
  · rename_i wire hwrite
    -- A write of nothing leaves what was sent as it was, and closes the link.
    have hsent := (Wire.write_ready hwrite).2
    rw [List.take_zero, List.append_nil] at hsent
    exact .refused hsent (Or.inr (Or.inr ⟨_, rfl⟩))
  · rename_i count wire hpos hwrite
    rcases Wire.write_ready hwrite with ⟨hle, hsent⟩
    exact .accepted hle hsent

theorem flush_goes (bus : Bus) : Goes bus .flushing (flush bus) := by
  have hsent := Wire.flush_sent bus.now bus.wire
  unfold flush
  split
  · rename_i wire hflush
    rw [hflush] at hsent
    exact .unflushed hsent (Or.inr (Or.inl rfl))
  · rename_i cause wire hflush
    rw [hflush] at hsent
    split
    · exact .unflushed hsent (Or.inl rfl)
    · exact .unflushed hsent (Or.inr (Or.inr ⟨_, rfl⟩))
  · rename_i wire hflush
    rw [hflush] at hsent
    exact .flushed hsent hflush

/-- A turn of a drain does one of the things a turn can do. -/
theorem step_goes (d : Drain) (bus : Bus) : Goes bus d (d.step bus) := by
  cases d with
  | starting => exact .take
  | sending =>
      simp only [step]
      split
      · rename_i hempty
        exact .empty hempty
      · exact offer_goes bus
  | flushing => exact flush_goes bus

/-- A turn loses, adds and reorders nothing. -/
theorem Goes.traffic {move : Turn Drain (Except Link.Error Unit) × Bus} (h : Goes bus d move) :
    move.2.traffic = bus.traffic := by
  unfold Bus.traffic
  cases h with
  | take =>
      simp only [Link.takeOutbound, List.append_nil]
      rw [List.append_assoc]
  | empty hempty => rfl
  | accepted hle hsent =>
      simp only [hsent, Link.accepted]
      rw [List.append_assoc bus.wire.sent, List.take_append_drop]
  | refused hsent hturn => simp only [hsent]
  | flushed hsent hflush => simp only [hsent]
  | unflushed hsent hturn => simp only [hsent]

/-- A turn only moves bytes forward. -/
theorem Goes.grows {move : Turn Drain (Except Link.Error Unit) × Bus} (h : Goes bus d move) :
    bus.Grows move.2 := by
  cases h with
  | take =>
      refine ⟨List.prefix_refl _, ?_⟩
      simp only [Link.takeOutbound]
      rw [← List.append_assoc]
      exact List.prefix_append _ _
  | empty hempty => exact .of_eq rfl rfl
  | accepted hle hsent =>
      -- What was sent grows by as much as the flight behind it shrinks.
      simp only [Bus.Grows, hsent, Link.accepted]
      rw [List.append_assoc bus.wire.sent, List.take_append_drop]
      exact ⟨List.prefix_append _ _, List.prefix_refl _⟩
  | refused hsent hturn => exact .of_eq hsent rfl
  | flushed hsent hflush => exact .of_eq hsent rfl
  | unflushed hsent hturn => exact .of_eq hsent rfl

/-- A turn counts what the wire accepts. -/
theorem Goes.bytesSent {move : Turn Drain (Except Link.Error Unit) × Bus} (h : Goes bus d move)
    (hcount : bus.link.statistics.bytesSent = bus.wire.sent.length) :
    move.2.link.statistics.bytesSent = move.2.wire.sent.length := by
  cases h with
  | take => exact hcount
  | empty hempty => exact hcount
  | accepted hle hsent =>
      simp only [Link.accepted, hsent, List.length_append, List.length_take]
      omega
  | refused hsent hturn => simp only [hsent, hcount]
  | flushed hsent hflush => simp only [hsent, hcount]
  | unflushed hsent hturn => simp only [hsent, hcount]

/-- A turn queues no frames. -/
theorem Goes.framesSent {move : Turn Drain (Except Link.Error Unit) × Bus} (h : Goes bus d move) :
    move.2.link.statistics.framesSent = bus.link.statistics.framesSent := by
  cases h with
  | take => rfl
  | empty hempty => rfl
  | accepted hle hsent => rfl
  | refused hsent hturn => rfl
  | flushed hsent hflush => rfl
  | unflushed hsent hturn => rfl

/-- A turn leaves the lock and the configuration alone. -/
theorem Goes.lock {move : Turn Drain (Except Link.Error Unit) × Bus} (h : Goes bus d move) :
    move.2.lock = bus.lock ∧ move.2.link.config = bus.link.config := by
  cases h with
  | take => exact ⟨rfl, rfl⟩
  | empty hempty => exact ⟨rfl, rfl⟩
  | accepted hle hsent => exact ⟨rfl, rfl⟩
  | refused hsent hturn => exact ⟨rfl, rfl⟩
  | flushed hsent hflush => exact ⟨rfl, rfl⟩
  | unflushed hsent hturn => exact ⟨rfl, rfl⟩

/-- What a drain has seen to, of bytes that were queued when it was called:
    once it sends, they are in flight or sent, and once it flushes, they are
    sent. -/
def Behind (queued : List UInt8) (bus : Bus) : Drain → Prop
  | .starting => queued <+: bus.traffic
  | .sending => queued <+: bus.wire.sent ++ bus.link.inFlight
  | .flushing => queued <+: bus.wire.sent

/-- What a drain has seen to stays seen to while the traffic grows at its
    end. -/
theorem Behind.mono {queued : List UInt8} (h : d.Behind queued bus) (hgrows : bus.Grows bus')
    (htraffic : bus.traffic <+: bus'.traffic) : d.Behind queued bus' := by
  cases d with
  | starting => exact h.trans htraffic
  | sending => exact h.trans hgrows.2
  | flushing => exact h.trans hgrows.1

theorem Behind.of_same {queued : List UInt8} (h : d.Behind queued bus) (hgrows : bus.Grows bus')
    (htraffic : bus'.traffic = bus.traffic) : d.Behind queued bus' :=
  h.mono hgrows (htraffic ▸ List.prefix_refl _)

/-- A turn brings a drain no further than what it has seen to. -/
theorem Goes.behind {queued : List UInt8} (hgoes : Goes bus d (.again d', bus'))
    (h : d.Behind queued bus) : d'.Behind queued bus' := by
  cases hgoes with
  | take =>
      simp only [Behind, Bus.traffic, Link.takeOutbound] at h ⊢
      rw [← List.append_assoc]
      exact h
  | empty hempty =>
      -- With nothing in flight, all that is sent or in flight is sent.
      simp only [Behind, hempty, List.append_nil] at h ⊢
      exact h
  -- What was accepted moves from in flight to sent.
  | accepted hle hsent =>
      simp only [Behind, hsent, Link.accepted] at h ⊢
      rw [List.append_assoc bus.wire.sent, List.take_append_drop]
      exact h
  -- Nothing was written, and the drain is where it was.
  | refused hsent hturn =>
      rcases hturn with hturn | hturn | ⟨e, hturn⟩
      · rw [Turn.again.injEq] at hturn
        rw [hturn]
        simp only [Behind, hsent] at h ⊢
        exact h
      · simp only [reduceCtorEq] at hturn
      · simp only [reduceCtorEq] at hturn
  | unflushed hsent hturn =>
      rcases hturn with hturn | hturn | ⟨e, hturn⟩
      · rw [Turn.again.injEq] at hturn
        rw [hturn]
        simp only [Behind, hsent] at h ⊢
        exact h
      · simp only [reduceCtorEq] at hturn
      · simp only [reduceCtorEq] at hturn

/-- A drain that succeeds does so by a flush that succeeds. -/
theorem Goes.ok (h : Goes bus d (.over (.ok ()), bus')) :
    d = .flushing ∧ (bus.wire.flush bus.now).1 = .ready () ∧
      bus' = { bus with wire := (bus.wire.flush bus.now).2 } := by
  cases h with
  | refused hsent hturn =>
      -- A write that is refused ends a drain with an error or not at all.
      rcases hturn with hturn | hturn | ⟨e, hturn⟩
      · simp only [reduceCtorEq] at hturn
      · simp only [reduceCtorEq] at hturn
      · simp only [Turn.over.injEq, reduceCtorEq] at hturn
  | flushed hsent hflush =>
      rw [hflush]
      exact ⟨rfl, rfl, rfl⟩
  | unflushed hsent hturn =>
      rcases hturn with hturn | hturn | ⟨e, hturn⟩
      · simp only [reduceCtorEq] at hturn
      · simp only [reduceCtorEq] at hturn
      · simp only [Turn.over.injEq, reduceCtorEq] at hturn

end Drain

end Multidrop
