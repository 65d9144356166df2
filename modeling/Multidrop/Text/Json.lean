import Multidrop.Text.Hex

/-!
# Compact JSON

Listings for programs are JSON on one line, without blanks between the parts
and with the fields of an object in a fixed order.

## Main definitions

* `string`: A text in quotation marks.
* `object`, `array`: Values put together.
-/

namespace Multidrop

namespace Text

namespace Json

/-- A character inside quotation marks. Control characters have a short name
    or a number of four digits, and everything else stands for itself. -/
def escape (c : Char) : List Char :=
  if c = '"' then ['\\', '"']
  else if c = '\\' then ['\\', '\\']
  else if c = '\x08' then ['\\', 'b']
  else if c = '\x0c' then ['\\', 'f']
  else if c = '\n' then ['\\', 'n']
  else if c = '\r' then ['\\', 'r']
  else if c = '\t' then ['\\', 't']
  else if c.toNat < 0x20 then ['\\', 'u'] ++ (Hex.padded 4 c.toNat).toList
  else [c]

/-- A text in quotation marks. -/
def string (s : String) : String :=
  String.ofList ('"' :: (s.toList.flatMap escape ++ ['"']))

/-- An object, its fields in the order given. -/
def object (fields : List (String × String)) : String :=
  "\x7b" ++ ",".intercalate (fields.map fun f => string f.1 ++ ":" ++ f.2) ++ "\x7d"

/-- An array. -/
def array (items : List String) : String :=
  "[" ++ ",".intercalate items ++ "]"

/-- A truth value. -/
def bool (b : Bool) : String :=
  if b then "true" else "false"

end Json

end Text

end Multidrop
