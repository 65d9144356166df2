import Multidrop.Command.Configure
import Multidrop.Command.Registers

/-!
# Running a Command

## Main definitions

* `versionText`: What the program says about itself.
* `Invocation.run`: Carry out what a command line asks for.
-/

namespace Multidrop

namespace Command

/-- What the program says about itself. -/
def versionText (build : Build) (extended : Bool) : String :=
  if extended then
    String.join <| [
      "name: serialmux",
      "version: 0.1.0",
      s!"target: {build.target}",
      s!"profile: {build.profile}",
      s!"frame_magic: 0x{Text.Hex.padded 4 Frame.magic.toNat}",
      s!"max_payload: {Frame.maxPayload}",
      "transports: tcp, unix"].map Report.line
  else Report.line "serialmux 0.1.0"

variable {m : Type → Type} [Monad m]

/-- Carry out what a command line asks for. -/
def Invocation.run (s : Surroundings m) (i : Invocation) : m (Except Failure Unit) :=
  ExceptT.run <|
    match i.order with
    | .configure order => order.run s i.common
    | .readRegisters order => order.run s i.common
    | .writeRegisters order => order.run s i.common
    | .version extended => print s (versionText s.build extended)

end Command

end Multidrop
