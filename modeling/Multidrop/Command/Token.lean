/-!
# Arguments by Their Looks

An argument of a command line is told by its looks. Two dashes and a name are
an option, whose value may follow behind an equals sign. One dash and some
letters are options by their short names. Two dashes alone say that only
words follow, and everything else is a word.

A number below zero looks like short options as well. Where words may be
numbers, an argument that looks like a number is a word.

## Main definitions

* `Token`: What an argument looks like.
* `Token.ofChars`: The looks of an argument.
* `looksNumeric`: Whether letters behind a dash look like a number.
-/

namespace Multidrop

namespace Command

/-- What an argument looks like. -/
inductive Token where
  /-- Only words follow. -/
  | separator
  | long (name : List Char) (value : Option (List Char))
  | short (letters : List Char)
  | word
  deriving DecidableEq

/-- What stands in front of the first equals sign, and what stands behind
    it. -/
def splitValue : List Char → List Char × Option (List Char)
  | [] => ([], none)
  | '=' :: value => ([], some value)
  | c :: rest =>
    let split := splitValue rest
    (c :: split.1, split.2)

/-- The looks of an argument. A dash alone is one without letters. -/
def Token.ofChars : List Char → Token
  | ['-', '-'] => .separator
  | '-' :: '-' :: text => .long (splitValue text).1 (splitValue text).2
  | '-' :: letters => .short letters
  | _ => .word

/-- Whether a text is empty or an exponent of digits. -/
def endsNumber : List Char → Bool
  | [] => true
  | 'e' :: digits => !digits.isEmpty && digits.all Char.isDigit
  | _ => false

/-- Whether letters behind a dash look like a number: digits, with a point
    and an exponent behind them at most. No letters do as well. -/
def looksNumeric (letters : List Char) : Bool :=
  match letters with
  | [] => true
  | first :: _ =>
    first.isDigit &&
      match letters.dropWhile Char.isDigit with
      | '.' :: fraction => endsNumber (fraction.dropWhile Char.isDigit)
      | rest => endsNumber rest

end Command

end Multidrop
