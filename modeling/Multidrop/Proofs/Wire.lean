import Multidrop.Wire

/-!
# What Calls Leave on a Wire

What has been sent over a wire only ever grows, and only a write that takes
effect makes it grow, by exactly the bytes it says it took. Rules, credit, the
device at the far end and what arrives from it have no part in that.

`Wire.outside` is a wire on which all of those have changed behind the back of
whoever uses it. Since a write and a flush ask the rules and the credit and
nothing else, a wire that is changed in this way before each call can answer
it with anything a wire may answer: it takes as much as it likes, takes
nothing, waits or fails.

## Main definitions

* `outside`: A wire that has changed in everything but what was sent.

## Theorems

* `write_ready`: A write that takes effect sends a prefix of what is offered.
* `write_failed`, `write_waiting`: A write that does not sends nothing.
* `flush_sent`: A flush sends nothing.
* `read_wire`: A read changes what is still to be read and nothing else.
-/

namespace Multidrop

namespace Wire

/-- A wire that has changed in everything but what was sent over it. -/
def outside (w changed : Wire) : Wire :=
  { changed with sent := w.sent }

theorem send_sent (now : Duration) (bytes : List UInt8) (w : Wire) :
    (w.send now bytes).sent = w.sent ++ bytes := rfl

/-- What credit allows is a prefix of what is offered, and all of that is
    sent. -/
theorem spend_ready {now : Duration} {offered : List UInt8} {w w' : Wire} {count : Nat}
    (h : w.spend now offered = (.ready count, w')) :
    count ≤ offered.length ∧ w'.sent = w.sent ++ offered.take count := by
  unfold spend at h
  split at h
  · simp only [Prod.mk.injEq, Outcome.ready.injEq] at h
    rw [← h.1, ← h.2, List.take_length]
    exact ⟨Nat.le_refl _, send_sent now offered w⟩
  · simp only [Prod.mk.injEq, reduceCtorEq, false_and] at h
  · rename_i credit hcredit hpos
    simp only [Prod.mk.injEq, Outcome.ready.injEq] at h
    rw [← h.1, ← h.2, send_sent, List.length_take]
    refine ⟨Nat.min_le_right _ _, ?_⟩
    -- Cutting at the credit or at what the credit leaves of the offer is the same.
    rw [← List.take_eq_take_min]

theorem spend_waiting {now : Duration} {offered : List UInt8} {w w' : Wire}
    (h : w.spend now offered = (.waiting, w')) : w'.sent = w.sent := by
  unfold spend at h
  split at h
  · simp only [Prod.mk.injEq, reduceCtorEq, false_and] at h
  · simp only [Prod.mk.injEq, true_and] at h
    rw [h]
  · simp only [Prod.mk.injEq, reduceCtorEq, false_and] at h

theorem spend_not_failed {now : Duration} {offered : List UInt8} {w w' : Wire}
    {cause : Transport.Fault} : w.spend now offered ≠ (.failed cause, w') := by
  unfold spend
  split
  · simp only [ne_eq, Prod.mk.injEq, reduceCtorEq, false_and, not_false_eq_true]
  · simp only [ne_eq, Prod.mk.injEq, reduceCtorEq, false_and, not_false_eq_true]
  · simp only [ne_eq, Prod.mk.injEq, reduceCtorEq, false_and, not_false_eq_true]

/-- A write that takes effect sends a prefix of what is offered, and says how
    long it is. -/
theorem write_ready {now : Duration} {offered : List UInt8} {w w' : Wire} {count : Nat}
    (h : w.write now offered = (.ready count, w')) :
    count ≤ offered.length ∧ w'.sent = w.sent ++ offered.take count := by
  unfold write at h
  split at h
  · exact spend_ready h
  · simp only [Prod.mk.injEq, Outcome.ready.injEq] at h
    rw [← h.1, ← h.2, List.take_zero, List.append_nil]
    exact ⟨Nat.zero_le _, rfl⟩
  · rename_i most rules hrules hpos
    -- The rule cuts the offer first, and the credit cuts what is left of it.
    rcases spend_ready h with ⟨hle, hsent⟩
    rw [List.length_take] at hle
    refine ⟨by omega, ?_⟩
    rw [hsent, List.take_take, Nat.min_eq_left (by omega)]
  · simp only [Prod.mk.injEq, reduceCtorEq, false_and] at h

theorem write_failed {now : Duration} {offered : List UInt8} {w w' : Wire}
    {cause : Transport.Fault} (h : w.write now offered = (.failed cause, w')) :
    w'.sent = w.sent := by
  unfold write at h
  split at h
  · exact absurd h spend_not_failed
  · simp only [Prod.mk.injEq, reduceCtorEq, false_and] at h
  · exact absurd h spend_not_failed
  · simp only [Prod.mk.injEq] at h
    rw [← h.2]

theorem write_waiting {now : Duration} {offered : List UInt8} {w w' : Wire}
    (h : w.write now offered = (.waiting, w')) : w'.sent = w.sent := by
  unfold write at h
  split at h
  · exact spend_waiting h
  · simp only [Prod.mk.injEq, reduceCtorEq, false_and] at h
  · have hsent := spend_waiting h
    exact hsent
  · simp only [Prod.mk.injEq, reduceCtorEq, false_and] at h

/-- A flush sends nothing. -/
theorem flush_sent (now : Duration) (w : Wire) : (w.flush now).2.sent = w.sent := by
  unfold flush
  split
  · rfl
  · rfl
  · rfl

/-- A read changes what is still to be read and nothing else. -/
theorem read_wire (now : Duration) (want : Nat) (w : Wire) :
    (w.read now want).2 = { w with arrivals := (w.read now want).2.arrivals } := by
  unfold read
  split
  · rfl
  · split
    · rfl
    · split
      · split
        · rfl
        · rfl
      · rfl
      · rfl

theorem read_rest {now : Duration} {want : Nat} {w w' : Wire} {outcome : Outcome (List UInt8)}
    (h : w.read now want = (outcome, w')) (arrivals : Arrivals) :
    { w' with arrivals } = { w with arrivals } := by
  have hwire := read_wire now want w
  rw [h] at hwire
  have hsame : w' = { w with arrivals := w'.arrivals } := hwire
  generalize w'.arrivals = rest at hsame
  rw [hsame]

theorem read_sent (now : Duration) (want : Nat) (w : Wire) :
    (w.read now want).2.sent = w.sent := by
  rw [read_wire]

end Wire

end Multidrop
