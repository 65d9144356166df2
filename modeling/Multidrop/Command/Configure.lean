import Multidrop.Command.Lines
import Multidrop.Command.Surroundings
import Multidrop.Command.Values
import Multidrop.Report.Configuration
import Multidrop.Text.Quoted

/-!
# Applying a Configuration File

The commands of a file go to a device over a stream channel, one at a time:
each waits for the line that answers it, and anything but `OK` ends the work.
So no command is sent behind one that was refused.

## Main definitions

* `applyLines`: Send commands one by one.
* `Configure.run`: Apply a file.
-/

namespace Multidrop

namespace Command

/-- The line that answers a command that was carried out. -/
def accepted : List UInt8 := [0x4f, 0x4b]

/-- The stream bytes of an answer, if it has some. -/
def streamOf : Answer → List UInt8
  | .bytes stream => stream
  | _ => []

variable {m : Type → Type} [Monad m]

/-- Send a command, and wait for the line that answers it. -/
def applyLine (s : Surroundings m) (limit : Duration) (command : List UInt8) (h : Host) :
    Step m (List UInt8 × Host) := do
  let shown := Text.quoted (Text.latin (Text.trimBytes command))
  let (_, h) ← perform s s!"sending {shown} failed" .drain none (h.write 0 command)
  let (answer, h) ← perform s s!"no reply to {shown}" .readLine (some limit) h
  return (Text.trimBytes (streamOf answer), h)

/-- Send commands one by one, up to the first one that is refused. -/
def applyLines (s : Surroundings m) (format : Report.Format) (limit : Duration) :
    List (List UInt8) → Host → Step m (List Report.Applied)
  | [], _ => return []
  | command :: more, h => do
    let (reply, h) ← applyLine s limit command h
    let applied : Report.Applied :=
      { command := Text.latin (Text.trimBytes command), reply := Text.latin reply }
    print s (Report.progress format applied)
    if reply = accepted then
      return applied :: (← applyLines s format limit more h)
    else
      let shown := Text.quoted applied.reply
      throw ⟨dataInvalid, s!"unexpected reply to {Text.quoted applied.command}: {shown}"⟩

/-- Apply a file. The file is read before the bus is connected to. -/
def Configure.run (s : Surroundings m) (common : Common) (order : Configure) : Step m Unit := do
  let timeout ← orFail id (parseDuration order.timeout)
  let limit ← orFail id (parseDuration order.lineTimeout)
  let file ← (s.readFile order.file : m _) >>= orFail (.ofFault s!"failed reading {order.file}")
  let format := common.reportFormat
  let h ← openHost s common order.target { channel := order.channel, timeout }
  let applied ← applyLines s format limit (commandLines file) h
  print s (Report.summary order.target order.channel applied format)

end Command

end Multidrop
