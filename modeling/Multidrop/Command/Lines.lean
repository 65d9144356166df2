import Multidrop.Text.Blank

/-!
# Lines of a Configuration File

A configuration file is a run of lines, each a command. A line ends with its
line feed, which is part of what is sent; the last one is given a line feed
if it has none. Blank lines are left out.

## Main definitions

* `splitLines`: The lines of a file.
* `commandLines`: The commands of a file.
-/

namespace Multidrop

namespace Command

/-- What ends a line. -/
def lineFeed : UInt8 := 0x0a

/-- The lines of a file, each with its line feed. Only the last one may be
    without. -/
def splitLines : List UInt8 → List (List UInt8)
  | [] => []
  | byte :: rest =>
    if byte = lineFeed then [byte] :: splitLines rest
    else
      match splitLines rest with
      | [] => [[byte]]
      | line :: lines => (byte :: line) :: lines

/-- A line with its line feed. -/
def terminated (line : List UInt8) : List UInt8 :=
  if line.getLast? = some lineFeed then line else line ++ [lineFeed]

/-- The commands of a file. -/
def commandLines (file : List UInt8) : List (List UInt8) :=
  ((splitLines file).filter fun line => !(Text.trimBytes line).isEmpty).map terminated

end Command

end Multidrop
