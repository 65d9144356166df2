import Multidrop.Decimal.Integer

/-!
# Internet Addresses

A host is named by an address or by a name. An address of the shorter kind has
one to four numbers: the last of them fills what the others leave. One of the
longer kind has eight groups of hexadecimal digits, of which a run of zeros
may be left out, and may say which network it belongs to.

## Main definitions

* `Address`: An address of either kind.
* `Address.ofText?`: Read an address.
* `isName`: Whether a text can be the name of a host.
-/

namespace Multidrop

namespace Transport

/-- An address of a host. -/
inductive Address where
  | short (number : Nat)
  /-- Eight groups of sixteen bits, and the number of a network, zero where
      none is named. -/
  | long (groups : List Nat) (network : Nat)
  deriving DecidableEq

namespace Address

/-- Cut a text at every mark. -/
def cut (mark : Char) : List Char → List (List Char)
  | [] => [[]]
  | c :: rest =>
    match cut mark rest with
    | [] => [[]]
    | part :: parts => if c = mark then [] :: part :: parts else (c :: part) :: parts

/-- The number that digits stand for. There has to be one. -/
def digits? (radix : Nat) (text : List Char) : Option Nat :=
  if text.isEmpty then none
  else text.foldlM (fun n c => (Decimal.digitValue? radix c).map (n * radix + ·)) 0

/-- A number of a short address: hexadecimal behind `0x`, octal behind a
    zero, and decimal otherwise. -/
def number? : List Char → Option Nat
  | '0' :: 'x' :: text => digits? 16 text
  | '0' :: 'X' :: text => digits? 16 text
  | '0' :: text => if text.isEmpty then some 0 else digits? 8 text
  | text => digits? 10 text

/-- Read a short address. -/
def short? (text : List Char) : Option Nat := do
  let numbers ← (cut '.' text).mapM number?
  let first := numbers.dropLast
  let last ← numbers.getLast?
  if 3 < first.length ∨ first.any (255 < ·) ∨ Nat.pow 256 (4 - first.length) ≤ last then none
  else some (first.foldl (· * 256 + ·) 0 * Nat.pow 256 (4 - first.length) + last)

/-- A number of a short address at the end of a long one: up to three decimal
    digits without zeros in front. -/
def byte? (text : List Char) : Option Nat :=
  if 1 < text.length ∧ text.head? = some '0' then none
  else (digits? 10 text).filter (· < 256)

/-- A group of a long address: up to four digits. -/
def group? (text : List Char) : Option Nat :=
  if 4 < text.length then none else digits? 16 text

/-- The groups of one side of a long address. At its end a short address
    stands for two. -/
def groups? (atEnd : Bool) (text : List Char) : Option (List Nat) :=
  if text.isEmpty then some []
  else do
    let parts := cut ':' text
    let last ← parts.getLast?
    let first ← parts.dropLast.mapM group?
    match group? last with
    | some group => some (first ++ [group])
    | none =>
      match ← (cut '.' last).mapM byte? with
      | [a, b, c, d] => if atEnd then some (first ++ [a * 256 + b, c * 256 + d]) else none
      | _ => none

/-- What stands in front of the first two colons in a row, and what stands
    behind them. -/
def gap? : List Char → Option (List Char × List Char)
  | ':' :: ':' :: rest => some ([], rest)
  | [] => none
  | c :: rest => (gap? rest).map fun (left, right) => (c :: left, right)

/-- The eight groups of a long address. Two colons stand for one group of
    zeros or more. -/
def allGroups? (text : List Char) : Option (List Nat) :=
  match gap? text with
  | none => (groups? true text).filter (·.length = 8)
  | some (left, right) => do
    let left ← groups? false left
    let right ← groups? true right
    let count := left.length + right.length
    if 7 < count then none else some (left ++ List.replicate (8 - count) 0 ++ right)

/-- Whether an address is one within a network only. -/
def isLocal (groups : List Nat) : Bool :=
  match groups with
  | first :: _ => 0xfe80 ≤ first && first ≤ 0xfebf
  | [] => false

/-- Whether an address is that of a group of hosts. -/
def isGroup (groups : List Nat) : Bool :=
  match groups with
  | first :: _ => 0xff00 ≤ first
  | [] => false

/-- Whether a long address holds a short one. -/
def holdsShort (groups : List Nat) : Bool :=
  groups.take 6 = [0, 0, 0, 0, 0, 0xffff]

/-- The number of the network that a host has to itself. -/
def ownNetwork : Nat := 1

/-- The name of that network. Only an address within a network may be
    followed by it. -/
def ownNetworkName : List Char := ['l', 'o']

/-- Read the number of a network. -/
def network? (text : List Char) : Option Nat :=
  (digits? 10 text).filter (· ≤ 0xffffffff)

/-- Read a long address, whose network may be named by a number. -/
def long? (text : List Char) : Option Address := do
  let groups ← allGroups? (text.takeWhile (· ≠ '%'))
  match text.dropWhile (· ≠ '%') with
  | [] => some (.long groups 0)
  | _ :: network => (network? network).map (.long groups)

/-- Read an address within the network that a host has to itself. -/
def own? (text : List Char) : Option Address := do
  let groups ← allGroups? (text.takeWhile (· ≠ '%'))
  if isLocal groups ∧ text.dropWhile (· ≠ '%') = '%' :: ownNetworkName then
    some (.long groups ownNetwork)
  else none

/-- Read an address. -/
def ofText? (text : List Char) : Option Address :=
  (short? text).map .short <|> long? text <|> own? text

/-- Read a long address in brackets. -/
def ofBrackets? : List Char → Option Address
  | '[' :: text => if text.getLast? = some ']' then long? text.dropLast else none
  | _ => none

end Address

/-- The most characters in a part of a name. -/
def maxLabel : Nat := 63

/-- The most characters in a name. -/
def maxName : Nat := 253

/-- Whether a text can be the name of a host: parts of letters, digits,
    dashes and underlines, with points between them. A point may close a name,
    and a point alone is the name of the root. -/
def isName (text : List Char) : Bool :=
  let name := if text.getLast? = some '.' then text.dropLast else text
  let isPart (part : List Char) : Bool :=
    !part.isEmpty && part.length ≤ maxLabel &&
      part.all fun c => c.isAlphanum || c = '-' || c = '_'
  text = ['.'] ||
    (text.head? ≠ some '-' && name.length ≤ maxName && (Address.cut '.' name).all isPart)

end Transport

end Multidrop
