import Multidrop.Report.Registers

/-!
# Configuration Listings

What became of a file of configuration commands: each command with the line
that the device answered. The plain format shows every command as soon as it
is answered and counts them at the end; the other formats show all of them at
the end.

## Main definitions

* `Applied`: A command and its answer.
* `progress`: What is shown when a command is answered.
* `summary`: What is shown at the end.
-/

namespace Multidrop

namespace Report

/-- A command and its answer. -/
structure Applied where
  command : String
  reply : String
  deriving DecidableEq

/-- What is shown when a command is answered. -/
def progress (format : Format) (a : Applied) : String :=
  if format = .pretty then line a.command ++ line ("> " ++ a.reply) else ""

/-- A command and its answer in JSON. -/
def appliedJson (a : Applied) : String :=
  Text.Json.object
    [("command", Text.Json.string a.command), ("reply", Text.Json.string a.reply)]

/-- What is shown at the end. -/
def summary (target : UInt8) (channel : UInt32) (applied : List Applied) (format : Format) :
    String :=
  match format with
  | .json =>
      line <| Text.Json.object
        [("target", toString target), ("channel", toString channel),
          ("lines", Text.Json.array (applied.map appliedJson))]
  | .table =>
      line (Text.Box.render ["COMMAND", "REPLY"] (applied.map fun a => [a.command, a.reply]))
  | .pretty => line s!"{applied.length} lines applied to device {target}"

end Report

end Multidrop
