import Multidrop.Register.Reply
import Multidrop.Report.Number
import Multidrop.Text.Box
import Multidrop.Text.Hex
import Multidrop.Text.Json

/-!
# Register Listings

The reply of a device, listed in one of three formats: JSON for programs, a
boxed table, or one plain line for each register. The registers come in
ascending order.

JSON says whether the reply was understood to its end and, if not, why; the
other formats show only what was understood, and say so when that is nothing.

## Main definitions

* `Format`: The formats of listings.
* `registers`: A reply, listed.
-/

namespace Multidrop

namespace Report

/-- The formats of listings. -/
inductive Format where
  | json
  | table
  | pretty
  deriving DecidableEq

/-- A format as it is named on the command line. -/
def Format.name : Format → String
  | .json => "json"
  | .table => "table"
  | .pretty => "pretty"

/-- A text as a line of its own. -/
def line (s : String) : String :=
  s ++ "\n"

/-- A register number as it is listed. -/
def registerText (register : UInt32) : String :=
  "0x" ++ Text.Hex.padded 3 register.toNat

/-- The name of the type of an entry, where it has one. -/
def kindText : Register.Entry → Option String
  | .value v => some v.kind.name
  | .error _ => none

/-- The value or the error of an entry. -/
def entryText : Register.Entry → String
  | .value v => Decimal.plain v.datum
  | .error code => s!"error {code}"

/-- Why reading a reply stopped. -/
def stopText (stop : Register.Stop) : String :=
  stop.description fun id => Text.Hex.padded 2 id.toNat

/-- An entry in JSON. An error has neither type nor value. -/
def rowJson (row : Register.Row) : String :=
  let register := ("register", toString row.1)
  match row.2 with
  | .value v =>
      Text.Json.object
        [register, ("type", Text.Json.string v.kind.name), ("value", Decimal.exchanged v.datum)]
  | .error code => Text.Json.object [register, ("error", toString code)]

/-- A reply in JSON. -/
def replyJson (target : UInt8) (reply : Register.Reply) : String :=
  let stopped := reply.stop.toList.map fun stop => ("stopped", Text.Json.string (stopText stop))
  Text.Json.object <|
    [("target", toString target), ("complete", Text.Json.bool reply.isComplete)] ++ stopped ++
      [("registers", Text.Json.array (reply.table.rows.map rowJson))]

/-- What is said of a device that reported nothing. -/
def silence (target : UInt8) : String :=
  s!"no reply from device {target}"

/-- A reply, listed. -/
def registers (target : UInt8) (reply : Register.Reply) (format : Format) : String :=
  let rows := reply.table.rows
  let nothing := if rows.isEmpty then line (silence target) else ""
  match format with
  | .json => line (replyJson target reply)
  | .table =>
      let cells := rows.map fun row =>
        [registerText row.1, (kindText row.2).getD "-", entryText row.2]
      line (Text.Box.render ["REGISTER", "TYPE", "VALUE"] cells) ++ nothing
  | .pretty =>
      let lines := rows.map fun row =>
        let kind := (kindText row.2).getD "-"
        line s!"{target}: {registerText row.1} {kind} {entryText row.2}"
      nothing ++ String.join lines

end Report

end Multidrop
