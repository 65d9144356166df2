import Multidrop.Proofs.Register.Reply

/-!
# Complete Replies

A reply is complete if its reading met no reason to stop. It does meet one
wherever a report breaks off behind its identifier, does not fit, or is of no
known kind. Where the identifier itself breaks off it meets none, and the
reading ends there as it does at the end of the payload.

So what a complete reply leaves open is one thing only: whether the payload
is a run of reports, or one with the beginning of a further identifier behind
it.

## Main definitions

* `Understood`: A payload is a run of reports that fit.
* `EndsInIdentifier`: One that breaks off within an identifier.

## Theorems

* `isComplete_iff`: What the payload of a complete reply looks like.
* `complete_understood`: A complete reply tells a payload that was understood
  from any other, but for one that breaks off within an identifier.
* `complete_not_understood`: Such a payload.
-/

namespace Multidrop

namespace Register

/-- The whole payload is a run of reports that fit. -/
def Understood (payload : List UInt8) : Prop :=
  ∃ reports, Splits payload reports []

/-- Behind some reports that fit comes the beginning of an identifier, and no
    more. -/
def EndsInIdentifier (payload : List UInt8) : Prop :=
  ∃ reports id, id ≠ [] ∧ Varuint.BrokenOff id ∧ Splits payload reports id

/-- Bytes that end the reading without a reason to stop break off within the
    first number of a report. -/
theorem Tail.breaks {rest : List UInt8} (h : Tail rest (.ok none)) :
    Varuint.BrokenOff rest := by
  generalize hverdict : (Except.ok none : Except Varuint.Error (Option Stop)) = verdict at h
  cases h with
  | finished h => exact h
  | unknown _ _ => simp only [Except.ok.injEq, reduceCtorEq] at hverdict
  | brokenOff _ _ _ => simp only [Except.ok.injEq, reduceCtorEq] at hverdict
  | missing _ _ => simp only [Except.ok.injEq, reduceCtorEq] at hverdict
  | overflow _ _ => simp only [Except.ok.injEq, reduceCtorEq] at hverdict
  | malformed _ _ _ => simp only [reduceCtorEq] at hverdict

theorem brokenOff_nil : Varuint.BrokenOff [] :=
  ⟨Varuint.open_nil, by decide⟩

variable {payload : List UInt8} {r : Reply}

/-- Behind the reports of a complete reply comes nothing, or an identifier
    breaks off. -/
theorem isComplete_iff (h : Reply.parse payload = .ok r) :
    r.isComplete = true ↔
      ∃ reports rest, Varuint.BrokenOff rest ∧ Splits payload reports rest := by
  rcases exists_splits payload with ⟨reports, rest, verdict, hsplits, htail⟩
  have hparse := parseInto_splits hsplits htail .empty
  rw [← Reply.parse, h] at hparse
  constructor
  · intro hcomplete
    match verdict with
    | .error e => simp only [Reply.closing, reduceCtorEq] at hparse
    | .ok none => exact ⟨reports, rest, htail.breaks, hsplits⟩
    | .ok (some why) =>
        rw [Reply.closing, Except.ok.injEq] at hparse
        simp only [hparse, Reply.isComplete, Option.isNone_some, Bool.false_eq_true] at hcomplete
  · rintro ⟨reports', rest', hbroken, hsplits'⟩
    have hread := parseInto_splits hsplits' (.finished hbroken) .empty
    rw [← Reply.parse, h, Reply.closing, Except.ok.injEq] at hread
    rw [hread]
    rfl

/-- No payload is both. What follows the longest run of reports is nothing,
    or it is something. -/
theorem EndsInIdentifier.not_understood (h : EndsInIdentifier payload) : ¬ Understood payload := by
  rintro ⟨reports, hsplits⟩
  rcases h with ⟨reports', id, hne, hbroken, hsplits'⟩
  have hlength := (hsplits'.longest (.finished hbroken) hsplits).2
  exact hne (List.length_eq_zero_iff.mp (Nat.le_zero.mp hlength))

/-- Where a payload does not break off within an identifier, its reply is
    complete exactly if every byte of it was understood. Where it does, the
    reply is complete all the same, and those last bytes were not. -/
theorem complete_understood (h : Reply.parse payload = .ok r) :
    (¬ EndsInIdentifier payload → (r.isComplete = true ↔ Understood payload)) ∧
    (EndsInIdentifier payload → r.isComplete = true ∧ ¬ Understood payload) := by
  refine ⟨fun hends => ?_, fun hends => ?_⟩
  · rw [isComplete_iff h]
    constructor
    · rintro ⟨reports, rest, hbroken, hsplits⟩
      by_cases hrest : rest = []
      · rw [hrest] at hsplits
        exact ⟨reports, hsplits⟩
      · exact absurd ⟨reports, rest, hrest, hbroken, hsplits⟩ hends
    · rintro ⟨reports, hsplits⟩
      exact ⟨reports, [], brokenOff_nil, hsplits⟩
  · refine ⟨(isComplete_iff h).mpr ?_, hends.not_understood⟩
    rcases hends with ⟨reports, id, -, hbroken, hsplits⟩
    exact ⟨reports, id, hbroken, hsplits⟩

/-- Register 16 holds 2. -/
theorem written_sixteen : (Report.single 16 (.int8 2)).Written [0x20, 0x10, 0x02] := by
  have hid : Varuint.Spells [0x20] (Subframe.replySingle + Kind.tag .int8) :=
    ⟨.last (by decide), by decide, by decide⟩
  have hregister : Varuint.Spells [0x10] 16 := ⟨.last (by decide), by decide, by decide⟩
  exact ⟨_, .cons hid (.cons hregister .nil), rfl⟩

/-- A run of reports alone. -/
theorem complete_understood_sixteen :
    ∃ r, Reply.parse [0x20, 0x10, 0x02] = .ok r ∧ ¬ EndsInIdentifier [0x20, 0x10, 0x02] ∧
      r.isComplete = true := by
  have hsplits : Splits ([0x20, 0x10, 0x02] ++ []) [.single 16 (.int8 2)] [] :=
    .cons written_sixteen trivial (.nil [])
  have hends : ¬ EndsInIdentifier [0x20, 0x10, 0x02] :=
    fun h => h.not_understood ⟨_, hsplits⟩
  have hparse := parseInto_splits hsplits (.finished brokenOff_nil) .empty
  exact ⟨_, hparse, hends, ((complete_understood hparse).1 hends).mpr ⟨_, hsplits⟩⟩

/-- The byte behind a report announces another one, which does not come. The
    reply is complete, and that byte was not understood. -/
theorem complete_not_understood :
    ¬ ∀ (payload : List UInt8) (r : Reply), Reply.parse payload = .ok r →
      (r.isComplete = true ↔ Understood payload) := by
  intro hall
  have hbroken : Varuint.BrokenOff [0x80] :=
    ⟨Varuint.open_cons.mpr ⟨by decide, Varuint.open_nil⟩, by decide⟩
  have hsplits : Splits ([0x20, 0x10, 0x02] ++ [0x80]) [.single 16 (.int8 2)] [0x80] :=
    .cons written_sixteen trivial (.nil [0x80])
  have hparse := parseInto_splits hsplits (.finished hbroken) .empty
  have hends : EndsInIdentifier ([0x20, 0x10, 0x02] ++ [0x80]) :=
    ⟨_, [0x80], by decide, hbroken, hsplits⟩
  exact hends.not_understood ((hall _ _ hparse).mp rfl)

end Register

end Multidrop
