import Multidrop.Register.Table
import Multidrop.Subframe
import Multidrop.Varuint

/-!
# Register Replies

A device answers a register request with a run of reply sub-frames, each for
one register, for consecutive registers, or for an error. Reading is lenient:
a sub-frame that is unknown, cut short, or past the last register number ends
the reading, and what came before it is kept. Only a malformed number is an
error of the whole reply.

## Main definitions

* `Stop`: Why reading ended before the payload was used up.
* `Reply`: What was reported, and where reading stopped.
* `parseSubframe`: Read one sub-frame.
* `Reply.parse`: Read a payload.

## Theorems

* `length_of_parseSubframe`: A sub-frame that was read leaves a shorter rest.
-/

namespace Multidrop

namespace Register

/-- Why reading ended before the payload was used up. -/
inductive Stop where
  /-- An identifier that is no reply. -/
  | unknownSubframe (id : UInt32)
  /-- A sub-frame cut short. -/
  | truncated
  /-- Values for registers past the last register number. -/
  | registerOverflow
  deriving DecidableEq

/-- How a reason to stop reads in a listing. -/
def Stop.description (hex : UInt32 → String) : Stop → String
  | .unknownSubframe id => s!"unknown sub-frame 0x{hex id}"
  | .truncated => "truncated"
  | .registerOverflow => "register number overflow"

/-- What the front of a payload turned out to be. -/
inductive Piece where
  /-- A whole sub-frame, and what follows it. -/
  | rows (rows : List Row) (rest : List UInt8)
  /-- No identifier, or only the beginning of one. -/
  | finished
  /-- A sub-frame that cannot be read. -/
  | stopped (why : Stop)

/-- Consecutive registers from `start` on with their values. -/
def consecutive (start : UInt32) (values : List Value) : List Row :=
  match values with
  | [] => []
  | v :: vs => (start, .value v) :: consecutive (start + 1) vs

/-- Read a value behind its register. -/
def parseSingle (kind : Kind) (bytes : List UInt8) : Except Varuint.Error Piece :=
  match Varuint.read bytes with
  | (.error e, _) => .error e
  | (.ok none, _) => .ok (.stopped .truncated)
  | (.ok (some register), afterRegister) =>
    match Value.decode kind afterRegister with
    | none => .ok (.stopped .truncated)
    | some (v, rest) => .ok (.rows [(register, .value v)] rest)

/-- Read two numbers. The second is read even where the first is missing, and
    a malformed one decides. -/
def parsePair (bytes : List UInt8) :
    Except Varuint.Error (Option (UInt32 × UInt32) × List UInt8) :=
  match Varuint.read bytes with
  | (.error e, _) => .error e
  | (.ok first, afterFirst) =>
    match Varuint.read afterFirst with
    | (.error e, _) => .error e
    | (.ok second, rest) =>
      match first, second with
      | some first, some second => .ok (some (first, second), rest)
      | _, _ => .ok (none, rest)

/-- Read consecutive values behind their first register and their count. The
    values have to be there before their registers are looked at. -/
def parseMultiple (kind : Kind) (bytes : List UInt8) : Except Varuint.Error Piece :=
  match parsePair bytes with
  | .error e => .error e
  | .ok (none, _) => .ok (.stopped .truncated)
  | .ok (some (start, count), rest) =>
    if rest.length < count.toNat * kind.width then .ok (.stopped .truncated)
    else if start.toNat + count.toNat > UInt32.size then .ok (.stopped .registerOverflow)
    else
      match Value.decodeMany kind count.toNat rest with
      | none => .ok (.stopped .truncated)
      | some (values, rest) => .ok (.rows (consecutive start values) rest)

/-- Read an error code behind its register. -/
def parseRefusal (bytes : List UInt8) : Except Varuint.Error Piece :=
  match parsePair bytes with
  | .error e => .error e
  | .ok (none, _) => .ok (.stopped .truncated)
  | .ok (some (register, code), rest) => .ok (.rows [(register, .error code)] rest)

/-- Read the sub-frame at the front of a payload. -/
def parseSubframe (bytes : List UInt8) : Except Varuint.Error Piece :=
  match Varuint.read bytes with
  | (.error e, _) => .error e
  | (.ok none, _) => .ok .finished
  | (.ok (some id), rest) =>
    if Subframe.base id = Subframe.replySingle then parseSingle (Kind.ofTag id) rest
    else if Subframe.base id = Subframe.replyMultiple then parseMultiple (Kind.ofTag id) rest
    else if id = Subframe.writeError ∨ id = Subframe.readError then parseRefusal rest
    else .ok (.stopped (.unknownSubframe id))

theorem length_of_parseSingle {kind : Kind} {bytes rest : List UInt8} {rows : List Row}
    (h : parseSingle kind bytes = .ok (.rows rows rest)) : rest.length ≤ bytes.length := by
  unfold parseSingle at h
  have hread := Varuint.length_read_le bytes
  split at h
  · simp only [reduceCtorEq] at h
  · simp only [Except.ok.injEq, reduceCtorEq] at h
  · rename_i register afterRegister hr
    rw [hr] at hread
    split at h
    · simp only [Except.ok.injEq, reduceCtorEq] at h
    · rename_i v rest' hd
      simp only [Except.ok.injEq, Piece.rows.injEq] at h
      rcases h with ⟨-, rfl⟩
      have := Value.length_of_decode hd
      simp only at hread
      omega

theorem length_of_parsePair {bytes rest : List UInt8} {pair : Option (UInt32 × UInt32)}
    (h : parsePair bytes = .ok (pair, rest)) : rest.length ≤ bytes.length := by
  unfold parsePair at h
  have hfirst := Varuint.length_read_le bytes
  split at h
  · simp only [reduceCtorEq] at h
  · rename_i first afterFirst hr
    rw [hr] at hfirst
    have hsecond := Varuint.length_read_le afterFirst
    split at h
    · simp only [reduceCtorEq] at h
    · rename_i second rest' hr'
      rw [hr'] at hsecond
      split at h <;>
        simp only [Except.ok.injEq, Prod.mk.injEq] at h <;>
        rcases h with ⟨-, rfl⟩ <;>
        exact Nat.le_trans hsecond hfirst

theorem length_of_parseMultiple {kind : Kind} {bytes rest : List UInt8} {rows : List Row}
    (h : parseMultiple kind bytes = .ok (.rows rows rest)) : rest.length ≤ bytes.length := by
  unfold parseMultiple at h
  split at h
  · simp only [reduceCtorEq] at h
  · simp only [Except.ok.injEq, reduceCtorEq] at h
  · rename_i start count mid hp
    have hpair := length_of_parsePair hp
    split at h
    · simp only [Except.ok.injEq, reduceCtorEq] at h
    · split at h
      · simp only [Except.ok.injEq, reduceCtorEq] at h
      · split at h
        · simp only [Except.ok.injEq, reduceCtorEq] at h
        · rename_i values rest' hd
          simp only [Except.ok.injEq, Piece.rows.injEq] at h
          rcases h with ⟨-, rfl⟩
          exact Nat.le_trans (Value.length_of_decodeMany hd) hpair

theorem length_of_parseRefusal {bytes rest : List UInt8} {rows : List Row}
    (h : parseRefusal bytes = .ok (.rows rows rest)) : rest.length ≤ bytes.length := by
  unfold parseRefusal at h
  split at h
  · simp only [reduceCtorEq] at h
  · simp only [Except.ok.injEq, reduceCtorEq] at h
  · rename_i register code mid hp
    simp only [Except.ok.injEq, Piece.rows.injEq] at h
    rcases h with ⟨-, rfl⟩
    exact length_of_parsePair hp

/-- A sub-frame that was read leaves a shorter rest, its identifier taking at
    least one byte. -/
theorem length_of_parseSubframe {bytes rest : List UInt8} {rows : List Row}
    (h : parseSubframe bytes = .ok (.rows rows rest)) : rest.length < bytes.length := by
  cases bytes with
  | nil =>
      simp only [parseSubframe, Varuint.read, Varuint.readFrom, Except.ok.injEq,
        reduceCtorEq] at h
  | cons byte more =>
      have hread := Varuint.length_read_lt (List.cons_ne_nil byte more)
      unfold parseSubframe at h
      split at h
      · simp only [reduceCtorEq] at h
      · simp only [Except.ok.injEq, reduceCtorEq] at h
      · rename_i id afterId hr
        rw [hr] at hread
        -- The id alone takes at least one byte, whatever comes behind it.
        refine Nat.lt_of_le_of_lt ?_ hread
        split at h
        · exact length_of_parseSingle h
        · split at h
          · exact length_of_parseMultiple h
          · split at h
            · exact length_of_parseRefusal h
            · simp only [Except.ok.injEq, reduceCtorEq] at h

/-- What a device reported, and why reading stopped early, if it did. -/
structure Reply where
  table : Table := .empty
  stop : Option Stop := none
  deriving DecidableEq

namespace Reply

/-- Whether nothing was reported. -/
def isEmpty (r : Reply) : Bool :=
  r.table.rows.isEmpty

/-- Whether reading went on to the end of the payload. -/
def isComplete (r : Reply) : Bool :=
  r.stop.isNone

/-- Read sub-frames into a table until one cannot be read. -/
def parseInto (table : Table) (bytes : List UInt8) : Except Varuint.Error Reply :=
  match _h : parseSubframe bytes with
  | .error e => .error e
  | .ok .finished => .ok { table }
  | .ok (.stopped why) => .ok { table, stop := some why }
  | .ok (.rows rows rest) => parseInto (table.insertAll rows) rest
termination_by bytes.length
decreasing_by exact length_of_parseSubframe _h

/-- Read a payload. -/
def parse (payload : List UInt8) : Except Varuint.Error Reply :=
  parseInto .empty payload

end Reply

end Register

end Multidrop
