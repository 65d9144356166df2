import Multidrop.Link.Error

/-!
# Outcomes of a Command

A command that fails says why in one line and ends with a code. The codes
group the causes: something wrong with the arguments, with the connection,
with what a device sent, or with time.

## Main definitions

* `Failure`: A code and a line.
* `Failure.ofFault`, `ofTransport`, `ofFrame`, `ofLink`: The failure that an
  error leads to, under a context that says what was being done.
-/

namespace Multidrop

namespace Command

/-- All went well. -/
def success : Nat := 0

/-- The bus cannot be reached. -/
def unreachable : Nat := 3

/-- The operating system refused. -/
def permissionDenied : Nat := 50

/-- A device sent something that makes no sense. -/
def dataInvalid : Nat := 60

/-- The arguments make no sense. -/
def usage : Nat := 64

/-- The program was stopped in the middle of something. -/
def stopped : Nat := 101

/-- No answer in time. -/
def timedOut : Nat := 124

/-- Something else went wrong. -/
def internal : Nat := 125

/-- Why a command failed. -/
structure Failure where
  code : Nat
  message : String
  deriving DecidableEq

namespace Failure

/-- The code of a fault. -/
def codeOfFault : Transport.FaultKind → Nat
  | .permissionDenied => Command.permissionDenied
  | .timedOut => Command.timedOut
  | .wouldBlock => Command.timedOut
  | .connectionRefused => unreachable
  | .notFound => unreachable
  | .brokenPipe => unreachable
  | .connectionReset => unreachable
  | _ => internal

/-- The failure of a call on the operating system. -/
def ofFault (context : String) (f : Transport.Fault) : Failure :=
  ⟨codeOfFault f.kind, s!"{context}: {f.message}"⟩

/-- The failure of a connection. Where the operating system gave the cause,
    only its text is shown. -/
def ofTransport (context : String) : Transport.Error → Failure
  | .connect _ cause => ofFault context cause
  | .io cause => ofFault context cause
  | .invalidEndpoint text =>
      ⟨usage, s!"{context}: {(Transport.Error.invalidEndpoint text).message}"⟩
  | .closed => ⟨unreachable, s!"{context}: {Transport.Error.closed.message}"⟩

/-- The failure of a frame. One that cannot be sent is the fault of the
    arguments. -/
def ofFrame (context : String) (e : Frame.Error) : Failure :=
  let code :=
    match e with
    | .invalidAddress _ => usage
    | .payloadTooLarge .. => usage
    | _ => dataInvalid
  ⟨code, s!"{context}: {e.message}"⟩

/-- The failure of an exchange. -/
def ofLink (context : String) : Link.Error → Failure
  | .transport cause => ofTransport context cause
  | .frame cause => ofFrame context cause
  | .register cause => ⟨usage, s!"{context}: {(Link.Error.register cause).message}"⟩
  | .timeout limit => ⟨Command.timedOut, s!"{context}: {(Link.Error.timeout limit).message}"⟩
  | .resynchronized reason discarded =>
      ⟨unreachable, s!"{context}: {(Link.Error.resynchronized reason discarded).message}"⟩

end Failure

end Command

end Multidrop
