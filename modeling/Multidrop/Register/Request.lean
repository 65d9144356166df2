import Multidrop.Register.Value
import Multidrop.Subframe
import Multidrop.Varuint

/-!
# Register Requests

A request is a run of register operations for one device, encoded one after
another, and a note whether the device should answer. Reading asks for an
answer by itself; a request of writes alone asks for one only when told to.

## Main definitions

* `Operation`: What can be asked of a device, one register or several.
* `Operation.encode`: The sub-frame of an operation, where it has one.
* `Request`: The operations so far, encoded.
* `Request.apply`: Add one operation.
* `Request.attempt`, `Request.attemptAll`: Add operations, those that are refused left out.
-/

namespace Multidrop

namespace Register

/-- What can be added to a request. -/
inductive Operation where
  | readSingle (register : UInt32) (kind : Kind)
  | readMultiple (register count : UInt32) (kind : Kind)
  | writeSingle (register : UInt32) (value : Value)
  /-- Write consecutive registers from `start` on. -/
  | writeMultiple (start : UInt32) (values : List Value)
  /-- Ask for an answer, or for none. -/
  | expectResponse (expect : Bool)
  deriving DecidableEq

/-- Why consecutive registers cannot be written. -/
inductive Error where
  | emptyValues
  /-- The value at `index` is not of the type of the first one. -/
  | mixedKinds (expected found : Kind) (index : Nat)
  deriving DecidableEq

/-- The wording of an error. -/
def Error.message : Error → String
  | .emptyValues => "write_multiple requires at least one value"
  | .mixedKinds expected found index =>
      s!"write_multiple value {index} is {found.title}, expected {expected.title}"

/-- The first value not of a given type, with its place counted from
    `index`. -/
def firstOfOtherKind (expected : Kind) : Nat → List Value → Option (Nat × Kind)
  | _, [] => none
  | index, v :: vs =>
    if v.kind = expected then firstOfOtherKind expected (index + 1) vs
    else some (index, v.kind)

/-- Refuse values that cannot be written together; of the others, give the
    type they share. -/
def commonKind : List Value → Except Error Kind
  | [] => .error .emptyValues
  | v :: vs =>
    match firstOfOtherKind v.kind 1 vs with
    | some (index, found) => .error (.mixedKinds v.kind found index)
    | none => .ok v.kind

/-- The sub-frame of an operation. Asking for an answer has none. -/
def Operation.encode : Operation → Except Error (List UInt8)
  | .readSingle register kind =>
      .ok (Varuint.encode (Subframe.readSingle + kind.tag) ++ Varuint.encode register)
  | .readMultiple register count kind =>
      .ok (Varuint.encode (Subframe.readMultiple + kind.tag) ++ Varuint.encode register ++
        Varuint.encode count)
  | .writeSingle register value =>
      .ok (Varuint.encode (Subframe.writeSingle + value.kind.tag) ++ Varuint.encode register ++
        value.encode)
  | .writeMultiple start values =>
      match commonKind values with
      | .error e => .error e
      | .ok kind =>
        .ok (Varuint.encode (Subframe.writeMultiple + kind.tag) ++ Varuint.encode start ++
          Varuint.encode values.length.toUInt32 ++ values.flatMap Value.encode)
  | .expectResponse _ => .ok []

/-- What an operation says about an answer, if anything. -/
def Operation.expectation : Operation → Option Bool
  | .readSingle .. => some true
  | .readMultiple .. => some true
  | .writeSingle .. => none
  | .writeMultiple .. => none
  | .expectResponse expect => some expect

/-- The operations so far, encoded, and whether the device should answer. -/
structure Request where
  bytes : List UInt8 := []
  expectsResponse : Bool := false
  deriving DecidableEq

/-- Add an operation. -/
def Request.apply (r : Request) (op : Operation) : Except Error Request :=
  match op.encode with
  | .error e => .error e
  | .ok bytes => .ok {
      bytes := r.bytes ++ bytes
      expectsResponse := op.expectation.getD r.expectsResponse }

/-- Add operations one after another, up to the first one refused. -/
def Request.applyAll (r : Request) : List Operation → Except Error Request
  | [] => .ok r
  | op :: ops =>
    match r.apply op with
    | .error e => .error e
    | .ok r' => r'.applyAll ops

/-- Try to add an operation: what comes of it, and the request behind it. One that is
    refused leaves the request as it was. -/
def Request.attempt (r : Request) (op : Operation) : Except Error Unit × Request :=
  match r.apply op with
  | .error e => (.error e, r)
  | .ok r' => (.ok (), r')

/-- Try operations one after another, whatever comes of those before: what comes of
    each, and the request behind it. -/
def Request.attempts (r : Request) : List Operation → List (Except Error Unit × Request)
  | [] => []
  | op :: ops =>
    let step := r.attempt op
    step :: step.2.attempts ops

/-- The request behind the last of some operations that were tried. -/
def Request.attemptAll (r : Request) (ops : List Operation) : Request :=
  ops.foldl (fun r op => (r.attempt op).2) r

end Register

end Multidrop
