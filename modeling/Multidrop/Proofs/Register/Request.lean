import Multidrop.Proofs.Subframe.Stream
import Multidrop.Register.Request

/-!
# Requests Are No Stream

A request opens with the identifier of its first operation, one of sixteen
that read or write registers. So a payload that is a request carries no stream
bytes, whatever values it writes.

## Main definitions

* `Request.Built`: A request that was built from operations.
* `Opens`: Bytes that open with such an identifier, if there are any.

## Theorems

* `Request.built_opens`: What is built opens so.
* `Request.carried_built`: What is built carries no stream bytes.
-/

namespace Multidrop

namespace Register

/-- Bytes that are none, or open with the identifier of an operation. -/
def Opens (bytes : List UInt8) : Prop :=
  bytes = [] ∨ ∃ (id : UInt32) (rest : List UInt8),
    id < Subframe.replySingle ∧ bytes = Varuint.encode id ++ rest

theorem Opens.append {bytes : List UInt8} (h : Opens bytes) {more : List UInt8}
    (hmore : Opens more) : Opens (bytes ++ more) := by
  rcases h with hnil | ⟨id, rest, hid, hbytes⟩
  · rw [hnil, List.nil_append]
    exact hmore
  · refine Or.inr ⟨id, rest ++ more, hid, ?_⟩
    rw [hbytes, List.append_assoc]

/-- The type bits do not lead out of the identifiers of operations. -/
theorem id_lt (kind : Kind) : Subframe.readSingle + kind.tag < Subframe.replySingle ∧
    Subframe.readMultiple + kind.tag < Subframe.replySingle ∧
    Subframe.writeSingle + kind.tag < Subframe.replySingle ∧
    Subframe.writeMultiple + kind.tag < Subframe.replySingle := by
  cases kind with
  | int8 => decide
  | int16 => decide
  | int32 => decide
  | float => decide

theorem Operation.encode_opens {op : Operation} {bytes : List UInt8}
    (h : op.encode = .ok bytes) : Opens bytes := by
  cases op with
  | readSingle register kind =>
      simp only [encode, Except.ok.injEq] at h
      exact Or.inr ⟨_, _, (id_lt kind).1, h.symm⟩
  | readMultiple register count kind =>
      simp only [encode, Except.ok.injEq, List.append_assoc] at h
      exact Or.inr ⟨_, _, (id_lt kind).2.1, h.symm⟩
  | writeSingle register value =>
      simp only [encode, Except.ok.injEq, List.append_assoc] at h
      exact Or.inr ⟨_, _, (id_lt value.kind).2.2.1, h.symm⟩
  | writeMultiple start values =>
      simp only [encode] at h
      split at h
      · simp only [reduceCtorEq] at h
      · rename_i kind hkind
        simp only [Except.ok.injEq, List.append_assoc] at h
        exact Or.inr ⟨_, _, (id_lt kind).2.2.2, h.symm⟩
  | expectResponse expect =>
      -- Whether a response is expected adds no bytes.
      simp only [encode, Except.ok.injEq] at h
      exact Or.inl h.symm

namespace Request

/-- A request that was built from operations. -/
def Built (r : Request) : Prop :=
  ∃ operations, applyAll {} operations = .ok r

theorem apply_opens {r r' : Request} {op : Operation} (hr : Opens r.bytes)
    (h : r.apply op = .ok r') : Opens r'.bytes := by
  unfold apply at h
  split at h
  · simp only [reduceCtorEq] at h
  · rename_i bytes hencode
    rw [Except.ok.injEq] at h
    rw [← h]
    exact hr.append (Operation.encode_opens hencode)

theorem applyAll_opens {r r' : Request} {operations : List Operation} (hr : Opens r.bytes)
    (h : r.applyAll operations = .ok r') : Opens r'.bytes := by
  induction operations generalizing r with
  | nil =>
      rw [applyAll, Except.ok.injEq] at h
      rw [← h]
      exact hr
  | cons op operations ih =>
      rw [applyAll] at h
      split at h
      · simp only [reduceCtorEq] at h
      · rename_i next hnext
        exact ih (apply_opens hr hnext) h

/-- What is built opens with the identifier of its first operation. -/
theorem built_opens {r : Request} (h : r.Built) : Opens r.bytes := by
  rcases h with ⟨operations, hbuilt⟩
  exact applyAll_opens (Or.inl rfl) hbuilt

/-- What is built carries no stream bytes for a device. -/
theorem carried_built {r : Request} (h : r.Built) (channel : UInt32) :
    Stream.carried Subframe.toDevice channel r.bytes = [] := by
  rcases built_opens h with hnil | ⟨id, rest, hid, hbytes⟩
  · rw [hnil]
    exact Stream.carried_nil _ channel
  · rw [hbytes]
    refine Stream.carried_of_first (Varuint.read_encode id rest) ?_
    intro hc
    rw [hc] at hid
    exact absurd hid (by decide)

end Request

end Register

end Multidrop
