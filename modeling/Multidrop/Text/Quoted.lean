import Multidrop.Text.Combining
import Multidrop.Text.Hex
import Multidrop.Text.Hidden

/-!
# Quoted Text

Messages show a text that came from outside between quotation marks, in a
form that cannot be mistaken for another text: quotation marks and
backslashes are escaped, the common control characters have short names, and
whatever has no glyph of its own, or attaches to another character, is shown by
its number. An apostrophe stands for itself.

## Main definitions

* `escape`: A character as it is shown.
* `quoted`: A text as it is shown.
* `latin`: Bytes as text, one character each.
-/

namespace Multidrop

namespace Text

/-- A character as it is shown. -/
def escape (c : Char) : List Char :=
  if c = '\x00' then ['\\', '0']
  else if c = '\t' then ['\\', 't']
  else if c = '\r' then ['\\', 'r']
  else if c = '\n' then ['\\', 'n']
  else if c = '"' then ['\\', '"']
  else if c = '\\' then ['\\', '\\']
  else if isCombining c || isHidden c then
    "\\u\x7b".toList ++ Hex.digits c.toNat ++ ['\x7d']
  else [c]

/-- A text between quotation marks. -/
def quoted (s : String) : String :=
  String.ofList ('"' :: (s.toList.flatMap escape ++ ['"']))

/-- Bytes as text, one character each: a byte is the number of its
    character. -/
def latin (bs : List UInt8) : String :=
  String.ofList (bs.map fun b => Char.ofNat b.toNat)

end Text

end Multidrop
