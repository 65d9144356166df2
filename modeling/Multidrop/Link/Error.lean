import Multidrop.Duration
import Multidrop.Frame
import Multidrop.Register.Request
import Multidrop.Transport.Endpoint

/-!
# Link Errors

What can go wrong while talking over a link. Some errors pass: a timeout, a
resynchronized link and a frame refused for its checksum say nothing about
the next exchange, and an exchange that meets one ends quietly.

## Main definitions

* `ResyncReason`: Why input was discarded.
* `Error`: What can go wrong.
* `Error.isTransient`: Whether the next exchange may well succeed.
-/

namespace Multidrop

namespace Link

/-- Why input was discarded. -/
inductive ResyncReason where
  /-- A header that does not start with the magic. -/
  | badMagic (found : UInt16)
  /-- A header that announces more than is accepted. -/
  | oversizedLength (length : Nat)
  deriving DecidableEq

/-- How a reason reads. -/
def ResyncReason.message : ResyncReason → String
  | .badMagic found => s!"bad magic 0x{Text.Hex.padded 4 found.toNat}"
  | .oversizedLength length => s!"oversized length {length}"

/-- What can go wrong while talking over a link. -/
inductive Error where
  | transport (cause : Transport.Error)
  | frame (cause : Frame.Error)
  | register (cause : Register.Error)
  | timeout (limit : Duration)
  | resynchronized (reason : ResyncReason) (discarded : Nat)
  deriving DecidableEq

/-- The wording of an error. -/
def Error.message : Error → String
  | .transport cause => s!"transport error: {cause.message}"
  | .frame cause => s!"frame error: {cause.message}"
  | .register cause => s!"register error: {cause.message}"
  | .timeout limit => s!"timed out after {limit.text}"
  | .resynchronized reason discarded =>
      s!"link resynchronized after {reason.message} ({discarded} bytes discarded)"

/-- Whether the next exchange may well succeed. -/
def Error.isTransient : Error → Bool
  | .timeout _ => true
  | .resynchronized .. => true
  | .frame (.crcMismatch ..) => true
  | _ => false

/-- The link is gone. -/
def Error.closed : Error := .transport .closed

end Link

end Multidrop
