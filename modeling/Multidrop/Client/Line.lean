/-!
# Lines of a Stream

A line of a stream ends at a carriage return or a line feed. Empty lines do
not count, so a pair of the two is as good as one of them.

## Main definitions

* `takeLine`: Take the first line from a buffer.
-/

namespace Multidrop

namespace Client

/-- Whether a byte ends a line. -/
def endsLine (byte : UInt8) : Bool :=
  byte == 0x0d || byte == 0x0a

/-- Take the first line from a buffer, and give back what remains. The line
    comes without its end. The line ends at the front go even where there is
    no line yet. -/
def takeLine (buffer : List UInt8) : Option (List UInt8) × List UInt8 :=
  let buffer := buffer.dropWhile endsLine
  match buffer.dropWhile (!endsLine ·) with
  | [] => (none, buffer)
  | _ :: rest => (some (buffer.takeWhile (!endsLine ·)), rest)

end Client

end Multidrop
