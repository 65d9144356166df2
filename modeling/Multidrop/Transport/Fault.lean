/-!
# Input and Output Faults

A call on the operating system or on the wire can fail. A fault has a kind,
which callers tell apart, and a text; a fault without a text of its own reads
as its kind.

## Main definitions

* `FaultKind`: The kinds that have a description.
* `Fault`: A kind with the text it came with.
* `Fault.ofNumber`: A fault as the operating system numbers it.
-/

namespace Multidrop

namespace Transport

/-- The kind of a fault. -/
inductive FaultKind where
  | notFound
  | permissionDenied
  | connectionRefused
  | connectionReset
  | connectionAborted
  | notConnected
  | addressInUse
  | addressNotAvailable
  | brokenPipe
  | alreadyExists
  | wouldBlock
  | invalidInput
  | invalidData
  | timedOut
  | writeZero
  | interrupted
  | unsupported
  | unexpectedEnd
  | outOfMemory
  | other
  deriving DecidableEq

/-- How a kind reads. -/
def FaultKind.description : FaultKind → String
  | .notFound => "entity not found"
  | .permissionDenied => "permission denied"
  | .connectionRefused => "connection refused"
  | .connectionReset => "connection reset"
  | .connectionAborted => "connection aborted"
  | .notConnected => "not connected"
  | .addressInUse => "address in use"
  | .addressNotAvailable => "address not available"
  | .brokenPipe => "broken pipe"
  | .alreadyExists => "entity already exists"
  | .wouldBlock => "operation would block"
  | .invalidInput => "invalid input parameter"
  | .invalidData => "invalid data"
  | .timedOut => "timed out"
  | .writeZero => "write zero"
  | .interrupted => "operation interrupted"
  | .unsupported => "unsupported"
  | .unexpectedEnd => "unexpected end of file"
  | .outOfMemory => "out of memory"
  | .other => "other error"

/-- A fault of a call on the operating system or on the wire. -/
structure Fault where
  kind : FaultKind
  text : Option String := none
  deriving DecidableEq

/-- The wording of a fault. -/
def Fault.message (f : Fault) : String :=
  f.text.getD f.kind.description

/-- The kind and the text of an error number of the operating system. -/
def ofErrorNumber : Nat → FaultKind × String
  | 1 => (.permissionDenied, "Operation not permitted")
  | 2 => (.notFound, "No such file or directory")
  | 4 => (.interrupted, "Interrupted system call")
  | 6 => (.other, "No such device or address")
  | 11 => (.wouldBlock, "Resource temporarily unavailable")
  | 12 => (.outOfMemory, "Cannot allocate memory")
  | 13 => (.permissionDenied, "Permission denied")
  | 17 => (.alreadyExists, "File exists")
  | 20 => (.other, "Not a directory")
  | 21 => (.other, "Is a directory")
  | 22 => (.invalidInput, "Invalid argument")
  | 32 => (.brokenPipe, "Broken pipe")
  | 36 => (.other, "File name too long")
  | 98 => (.addressInUse, "Address already in use")
  | 99 => (.addressNotAvailable, "Cannot assign requested address")
  | 101 => (.other, "Network is unreachable")
  | 103 => (.connectionAborted, "Software caused connection abort")
  | 104 => (.connectionReset, "Connection reset by peer")
  | 107 => (.notConnected, "Transport endpoint is not connected")
  | 110 => (.timedOut, "Connection timed out")
  | 111 => (.connectionRefused, "Connection refused")
  | 113 => (.other, "No route to host")
  | number => (.other, s!"Unknown error {number}")

/-- A fault as the operating system numbers it. -/
def Fault.ofNumber (number : Nat) : Fault where
  kind := (ofErrorNumber number).1
  text := some s!"{(ofErrorNumber number).2} (os error {number})"

end Transport

end Multidrop
