import Multidrop.Decimal.Integer
import Multidrop.Text.Blank
import Multidrop.Text.Quoted
import Multidrop.Transport.Fault

/-!
# Endpoints

Where the bridge to the bus is found: a host and a port, or a path. Blanks
around an endpoint do not count. The host is not looked at any further than
that it is there and holds a colon.

## Main definitions

* `Endpoint`: A place to connect to.
* `Endpoint.parse`: Read one.
* `Endpoint.display`: Write one.
* `Error`: What can go wrong between here and the bus.
* `hostText`, `portText`: The parts of an address.
* `portFault?`: What is wrong with the port of an address.
-/

namespace Multidrop

namespace Transport

/-- What can go wrong between here and the bus. -/
inductive Error where
  /-- No connection to an endpoint. -/
  | connect (endpoint : String) (cause : Fault)
  | invalidEndpoint (text : String)
  | io (cause : Fault)
  /-- The other side is gone. -/
  | closed
  deriving DecidableEq

/-- The wording of an error. -/
def Error.message : Error → String
  | .connect endpoint cause => s!"failed to connect to {endpoint}: {cause.message}"
  | .invalidEndpoint text =>
      s!"invalid endpoint {Text.quoted text} (expected tcp://host:port or unix:/path)"
  | .io cause => s!"transport I/O error: {cause.message}"
  | .closed => "transport closed"

/-- A place to connect to. -/
inductive Endpoint where
  | tcp (address : String)
  | unix (path : String)
  deriving DecidableEq

namespace Endpoint

/-- What follows a mark at the front of a text. -/
def after? (mark text : List Char) : Option (List Char) :=
  match mark, text with
  | [], rest => some rest
  | _ :: _, [] => none
  | m :: ms, c :: cs => if m = c then after? ms cs else none

/-- Read an endpoint. -/
def parse (text : String) : Except Error Endpoint :=
  let trimmed := Text.trim text
  match after? "tcp://".toList trimmed.toList with
  | some address =>
    if ':' ∈ address then .ok (.tcp (String.ofList address))
    else .error (.invalidEndpoint trimmed)
  | none =>
    match after? "unix:".toList trimmed.toList with
    | some (c :: path) => .ok (.unix (String.ofList (c :: path)))
    | _ => .error (.invalidEndpoint trimmed)

/-- Write an endpoint. -/
def display : Endpoint → String
  | .tcp address => "tcp://" ++ address
  | .unix path => "unix:" ++ path

end Endpoint

/-- The port of an address: what stands behind its last colon. -/
def portText (address : String) : List Char :=
  (address.toList.reverse.takeWhile (· ≠ ':')).reverse

/-- The host of an address: what stands in front of its last colon. -/
def hostText (address : String) : List Char :=
  address.toList.take (address.length - (portText address).length - 1)

/-- The fault of an address whose port is no number of sixteen bits. -/
def portFault? (address : String) : Option Fault :=
  match Decimal.Range.unsigned16.parse 10 (portText address) with
  | .ok _ => none
  | .error _ => some { kind := .invalidInput, text := some "invalid port value" }

end Transport

end Multidrop
