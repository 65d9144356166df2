import Multidrop.Proofs.Link.Quiet
import Multidrop.Proofs.Link.Stages
import Multidrop.Proofs.Wire.Cuts

/-!
# When Bytes Can Have Been Read

Arrivals come in their order, so what stands behind an arrival has to wait for
it, even where it is due before. The moment at which no more than a given number
of bytes is left to be read is therefore the latest of the moments of all that
has to come before.

Reading does not change that moment, but for what has come already: as long as
the clock has not reached it, it stays the same, whoever reads and however much.

## Main definitions

* `Arrivals.settled`: The moment at which no more than a number of bytes is left.

## Theorems

* `Arrivals.settled_of_le`: What is not left any more does not have to come.
* `Arrivals.settled_first`: Something that is to be read has to wait for the
  first arrival.
* `Wire.idle_of_waiting`, `Reception.idle_of_waiting`: Who has to wait finds
  nothing due.
* `Wire.read_settled`, `Reception.step_settled`: What is read does not matter.
-/

namespace Multidrop

namespace Arrivals

/-- The moment at which no more than `left` bytes are left to be read. -/
def settled (left : Nat) : Arrivals → Duration
  | [] => 0
  | (moment, arrival) :: later =>
    if (Arrivals.bytes ((moment, arrival) :: later)).length ≤ left then 0
    else max moment (settled left later)

variable {left : Nat} {script : Arrivals}

/-- Where no more is left already, nothing has to come. -/
theorem settled_of_le (h : script.bytes.length ≤ left) : script.settled left = 0 := by
  cases script with
  | nil => rfl
  | cons entry later => exact if_pos h

theorem settled_of_lt {entry : Duration × Arrival} {later : Arrivals}
    (h : left < (Arrivals.bytes (entry :: later)).length) :
    Arrivals.settled left (entry :: later) = max entry.1 (later.settled left) :=
  if_neg (Nat.not_le.mpr h)

/-- As long as more is left, the first arrival has to come. -/
theorem settled_first {entry : Duration × Arrival} {later : Arrivals}
    (h : left < (Arrivals.bytes (entry :: later)).length) :
    entry.1 ≤ Arrivals.settled left (entry :: later) := by
  rw [settled_of_lt h]
  exact Nat.le_max_left _ _

/-- The more is left, the sooner. -/
theorem settled_antitone {left left' : Nat} (h : left ≤ left') :
    script.settled left' ≤ script.settled left := by
  induction script with
  | nil => exact Nat.le_refl _
  | cons entry later ih =>
      by_cases hleft : (Arrivals.bytes (entry :: later)).length ≤ left'
      · rw [settled_of_le hleft]
        exact Nat.zero_le _
      · have hmore := Nat.not_le.mp hleft
        rw [settled_of_lt hmore, settled_of_lt (Nat.lt_of_le_of_lt h hmore)]
        exact Nat.max_le.mpr ⟨Nat.le_max_left _ _, Nat.le_trans ih (Nat.le_max_right _ _)⟩

/-- What is to be read has to wait as long as nothing is due. -/
theorem settled_idle {now : Duration} (hidle : script.Idle now)
    (h : left < script.bytes.length) : now < script.settled left := by
  cases script with
  | nil => exact absurd h (Nat.not_lt_zero _)
  | cons entry later => exact Nat.lt_of_lt_of_le (hidle entry.1 rfl) (settled_first h)

/-- An arrival that is due can be replaced by what is left of it, or by nothing
    if nothing is. -/
theorem settled_replaced {now moment : Duration} {arrival : Arrival} {later rest : Arrivals}
    (hdue : moment ≤ now) (hrest : rest = [] ∨ ∃ part, rest = [(moment, part)] ∧
      part.bytes.length ≤ arrival.bytes.length) :
    max now (Arrivals.settled left ((moment, arrival) :: later)) =
      max now (Arrivals.settled left (rest ++ later)) := by
  -- What is due already does not keep anybody waiting.
  have hfirst : max now (Arrivals.settled left ((moment, arrival) :: later)) =
      max now (later.settled left) := by
    by_cases hleft : (Arrivals.bytes ((moment, arrival) :: later)).length ≤ left
    · rw [settled_of_le hleft, settled_of_le]
      rw [bytes_cons, List.length_append] at hleft
      exact Nat.le_trans (Nat.le_add_left _ _) hleft
    · rw [settled_of_lt (Nat.not_le.mp hleft), ← Nat.max_assoc, Nat.max_eq_left hdue]
  rcases hrest with hnone | ⟨part, hpart, hless⟩
  · rw [hfirst, hnone, List.nil_append]
  · rw [hfirst, hpart, List.singleton_append]
    by_cases hleft : (Arrivals.bytes ((moment, part) :: later)).length ≤ left
    · rw [settled_of_le hleft, settled_of_le]
      rw [bytes_cons, List.length_append] at hleft
      exact Nat.le_trans (Nat.le_add_left _ _) hleft
    · rw [settled_of_lt (Nat.not_le.mp hleft), ← Nat.max_assoc, Nat.max_eq_left hdue]

end Arrivals

namespace Wire

/-- What a read takes has come already, so for what is still to come nothing
    changes. -/
theorem read_settled (now : Duration) (want : Nat) (w : Wire) (left : Nat) :
    max now ((w.read now want).2.arrivals.settled left) = max now (w.arrivals.settled left) := by
  unfold read
  split
  · rfl
  · rename_i moment arrival later harrivals
    split
    · rfl
    · rename_i hdue
      -- Whatever is taken, it is the first arrival that gets shorter.
      have hreplaced {rest : Arrivals} (h : rest = [] ∨ ∃ part, rest = [(moment, part)] ∧
          part.bytes.length ≤ arrival.bytes.length) :
          max now (w.arrivals.settled left) = max now (Arrivals.settled left (rest ++ later)) := by
        rw [harrivals]
        exact Arrivals.settled_replaced (Nat.not_lt.mp hdue) h
      split
      · rename_i first more
        split
        · exact (hreplaced (Or.inl rfl)).symm
        · rename_i next part hdrop
          refine (hreplaced (Or.inr ⟨.data next part, rfl, ?_⟩)).symm
          have hlength := congrArg List.length hdrop
          rw [List.length_drop] at hlength
          rw [Arrival.bytes, Arrival.bytes, ← hlength]
          exact Nat.sub_le _ _
      · rfl
      · exact (hreplaced (Or.inl rfl)).symm

/-- A read has to wait only where nothing is due. -/
theorem idle_of_waiting {now : Duration} {want : Nat} {w w' : Wire}
    (h : w.read now want = (.waiting, w')) : w.arrivals.Idle now := by
  unfold read at h
  split at h
  · rename_i harrivals
    rw [harrivals]
    exact nofun
  · rename_i moment arrival later harrivals
    rw [harrivals]
    split at h
    · rename_i hearly
      intro first hfirst
      exact Option.some.inj hfirst ▸ hearly
    · split at h
      · split at h
        · exact absurd (congrArg Prod.fst h) nofun
        · exact absurd (congrArg Prod.fst h) nofun
      · exact absurd (congrArg Prod.fst h) nofun
      · exact absurd (congrArg Prod.fst h) nofun

end Wire

namespace Reception

/-- A reception has to wait only where nothing is due. -/
theorem idle_of_waiting {onlyFrom : Option UInt8} {r : Reception} {bus bus' : Bus}
    (hsound : Sound bus.link.config.limits r) (h : r.step onlyFrom bus = (.waiting, bus')) :
    bus.wire.arrivals.Idle bus.now := by
  have hmoves := step_moves onlyFrom hsound
  rw [h] at hmoves
  generalize hturn : (Turn.waiting, bus') = turn at hmoves
  cases hmoves with
  | waiting hread => exact Wire.idle_of_waiting hread
  | interrupted hread hkind => exact absurd (congrArg Prod.fst hturn) nofun
  | failed hread hkind => exact absurd (congrArg Prod.fst hturn) nofun
  | closed hread => exact absurd (congrArg Prod.fst hturn) nofun
  | bytes hread hproceed hcomes =>
      cases hcomes with
      | again next hnext hgot => exact absurd (congrArg Prod.fst hturn) nofun
      | untrusted reason huntrusted => exact absurd (congrArg Prod.fst hturn) nofun
      | unreadable cause hunreadable => exact absurd (congrArg Prod.fst hturn) nofun
      | whole p haccepted htaken => exact absurd (congrArg Prod.fst hturn) nofun

theorem readArrived_settled (now : Duration) (want : Nat) (wire : Wire) (left : Nat) :
    max now ((readArrived now want wire).2.arrivals.settled left) =
      max now (wire.arrivals.settled left) := by
  have hread := wire.read_settled now want left
  unfold readArrived
  generalize wire.read now want = outcome at hread ⊢
  split
  · exact hread
  · exact hread
  · split
    · exact hread
    · exact hread

/-- Nor does it matter what is thrown away. By induction on the window. -/
theorem discard_settled (now : Duration) (window : Nat) (wire : Wire) (left : Nat) :
    max now ((discard now window wire).2.arrivals.settled left) =
      max now (wire.arrivals.settled left) := by
  induction window using Nat.strongRecOn generalizing wire with
  | ind window ih =>
    have hread := readArrived_settled now (min window discardChunk) wire left
    rw [discard]
    split
    · rfl
    · rename_i hwindow
      generalize readArrived now (min window discardChunk) wire = outcome at hread ⊢
      split
      · exact hread
      · exact hread
      · rename_i byte more wire'
        exact (ih (window - (more.length + 1)) (by omega) wire').trans hread

theorem giveUp_settled (reason : Link.ResyncReason) (bus : Bus) (left : Nat) :
    max bus.now ((giveUp reason bus).2.wire.arrivals.settled left) =
      max bus.now (bus.wire.arrivals.settled left) := by
  have hdiscard := discard_settled bus.now bus.link.config.resyncWindow bus.wire left
  unfold giveUp resynchronize
  generalize discard bus.now bus.link.config.resyncWindow bus.wire = outcome at hdiscard ⊢
  split
  · exact hdiscard
  · exact hdiscard

/-- So a turn of a reception changes nothing for what is still to come. -/
theorem step_settled (onlyFrom : Option UInt8) {r : Reception} {bus : Bus}
    (hsound : Sound bus.link.config.limits r) (left : Nat) :
    max bus.now ((r.step onlyFrom bus).2.wire.arrivals.settled left) =
      max bus.now (bus.wire.arrivals.settled left) := by
  have hread := bus.wire.read_settled bus.now r.wants left
  have hmoves := step_moves onlyFrom hsound
  generalize r.step onlyFrom bus = turn at hmoves ⊢
  cases hmoves with
  | waiting hwaits =>
      rw [hwaits] at hread
      exact hread
  | interrupted hfails hkind =>
      rw [hfails] at hread
      exact hread
  | failed hfails hkind =>
      rw [hfails] at hread
      exact hread
  | closed hends =>
      rw [hends] at hread
      exact hread
  | @bytes byte more wire turn hbytes hturn hcomes =>
      rw [hbytes] at hread
      -- Behind the read only a purge takes something more, and all of that is due.
      cases hcomes with
      | again next hnext hgot => exact hread
      | untrusted reason huntrusted =>
          exact (giveUp_settled reason { bus with wire } left).trans hread
      | unreadable cause hunreadable => exact hread
      | whole p haccepted htaken =>
          simp only [close_wire]
          exact hread

end Reception

end Multidrop
