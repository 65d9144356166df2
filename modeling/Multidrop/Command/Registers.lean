import Multidrop.Command.Surroundings
import Multidrop.Command.Values

/-!
# Reading and Writing Registers

Registers are read with one request and its reply. They are written with one
request as well: all values are read from the command line before anything is
sent, so either all of them are sent or none.

## Main definitions

* `ReadRegisters.run`: Read registers.
* `WriteRegisters.run`: Write registers.
-/

namespace Multidrop

namespace Command

/-- The reply of an answer, if it has one. -/
def replyOf? : Answer → Option Register.Reply
  | .reply reply => some reply
  | _ => none

/-- The request to read registers. -/
def ReadRegisters.operation (order : ReadRegisters) : Except Failure Register.Operation :=
  if order.count = 0 then .error ⟨usage, "--count must be at least 1"⟩
  else if order.count = 1 then .ok (.readSingle order.register order.kind)
  else .ok (.readMultiple order.register order.count order.kind)

/-- The request to write registers. -/
def WriteRegisters.operations (order : WriteRegisters) :
    Except Failure (List Register.Operation) :=
  (parseValues order.kind order.values).map fun values =>
    let write :=
      match values with
      | [value] => .writeSingle order.register value
      | values => .writeMultiple order.register values
    [write, .expectResponse order.ack]

variable {m : Type → Type} [Monad m]

/-- Build a request from operations. -/
def buildRequest (operations : List Register.Operation) : Step m Register.Request :=
  orFail (fun e => ⟨usage, e.message⟩) (Register.Request.applyAll {} operations)

/-- Read registers. A reply that reports nothing counts as none. -/
def ReadRegisters.run (s : Surroundings m) (common : Common) (order : ReadRegisters) :
    Step m Unit := do
  let timeout ← orFail id (parseDuration order.timeout)
  let operation ← orFail id order.operation
  let request ← buildRequest [operation]
  let h ← openHost s common order.target { timeout }
  let (answer, _) ← perform s "register query failed" (.query request.bytes) none h
  let reply := (replyOf? answer).getD {}
  if reply.isEmpty then
    throw ⟨timedOut, s!"no reply from device {order.target} within {timeout.text}"⟩
  else print s (Report.registers order.target reply common.reportFormat)

/-- Write registers. Where the device is asked to answer, an answer that
    reports nothing counts as none. -/
def WriteRegisters.run (s : Surroundings m) (common : Common) (order : WriteRegisters) :
    Step m Unit := do
  let timeout ← orFail id (parseDuration order.timeout)
  let operations ← orFail id order.operations
  let request ← buildRequest operations
  let h ← openHost s common order.target { timeout }
  let (answer, _) ← perform s "register write failed" (.ofRequest request) none h
  match replyOf? answer with
  | none => return ()
  | some reply =>
    if reply.isEmpty then
      throw ⟨timedOut, s!"no acknowledgement from device {order.target}"⟩
    else print s (Report.registers order.target reply common.reportFormat)

end Command

end Multidrop
