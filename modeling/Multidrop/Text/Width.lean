import Multidrop.Text.Emoji
import Multidrop.Text.Ligature

/-!
# Display Width

How many columns a text takes where every column is as wide as a digit. It is
the sum of the columns of its characters, except where characters are shown
together: a line end of two characters, a ligature, and a picture that is put
together from others or chosen by a selector.

A text is measured from its end. What a character adds depends on what comes
behind it, and only as far as a `Follower` says.

Of several selectors behind a character the one next to it counts. In front of
the end of a ligature the others count too, except one that asks for a picture.

## Main definitions

* `Selector`: A mark that asks for a form of the character in front of it.
* `Opening`: What begins behind a character and may go on with it.
* `Follower`: What comes behind a character.
* `measure`: What a character adds, and what comes behind the next one.
* `width`: The columns of a text.
-/

namespace Multidrop

namespace Text

/-- A mark that asks for a form of the character in front of it. -/
inductive Selector where
  /-- A picture. -/
  | picture
  /-- A plain sign. -/
  | sign
  /-- Full width. -/
  | full
  deriving DecidableEq

/-- The selector that a character is. -/
def Selector.ofChar? (c : Char) : Option Selector :=
  match c.toNat with
  | 0xfe01 => some .full
  | 0xfe0e => some .sign
  | 0xfe0f => some .picture
  | _ => none

/-- What begins behind a character and may go on with it. -/
inductive Opening where
  | lineFeed
  | ligature (g : Ligature)
  /-- The tone of a skin. -/
  | modifier
  | emoji
  /-- Letters of flags. -/
  | flags (count : Nat)
  /-- A joiner with a picture behind it. -/
  | joinedEmoji
  /-- The frame of a key with a joined picture behind it. -/
  | joinedKeycap
  /-- Letters of flags with a joined picture behind them. -/
  | joinedFlags (count : Nat)
  /-- The letters at the end of the name of a region. -/
  | tagLetters (count : Nat)
  /-- The digits in front of these. -/
  | tagDigits (count : Nat)
  deriving DecidableEq

/-- What comes behind a character, as far as its columns depend on it. -/
structure Follower where
  opening : Option Opening := none
  /-- The selectors that ask for a form of the character. -/
  selectors : List Selector := []
  deriving DecidableEq

/-- The end of a ligature as what comes behind a character. -/
def Follower.ofLigature (g : Option Ligature) : Follower :=
  { opening := g.map .ligature }

/-- What comes behind the character in front of some opening. -/
def Follower.of (o : Opening) : Follower :=
  { opening := some o }

namespace Opening

/-- Whether a selector may stand in front of an opening. In front of joined
    pictures only one that asks for another picture may. -/
def allows (s : Selector) : Opening → Bool
  | .ligature g => g.allowsSelector
  | .joinedEmoji => s = .picture
  | .joinedKeycap => s = .picture
  | _ => false

/-- Whether a picture in front of an opening becomes a part of it. -/
def joinsPicture : Opening → Bool
  | .joinedEmoji => true
  | .joinedKeycap => true
  | _ => false

/-- What a joiner in front of an opening makes of it. A single letter of a
    flag is no picture. -/
def join? : Opening → Option Opening
  | .emoji => some .joinedEmoji
  | .modifier => some .joinedEmoji
  | .flags count => if 1 < count then some .joinedEmoji else none
  | .joinedFlags count => if 1 < count then some .joinedEmoji else none
  | _ => none

/-- The frame of a key, which goes around the character in front of it. -/
def keycap : Char := '\u20e3'

/-- The black flag, in front of the name of a region. -/
def regionFlag : Nat := 0x1f3f4

/-- The mark at the end of the name of a region. -/
def regionEnd : Nat := 0xe007f

/-- What a character adds in front of joined pictures, and what it makes of
    them. -/
def prepend? (c : Char) : Option (Int × Opening) :=
  if c = keycap then some (0, .joinedKeycap)
  else if isFlagLetter c then some (1, .joinedFlags 1)
  else if isModifier c then some (0, .modifier)
  else if c.toNat = regionEnd then some (0, .tagLetters 0)
  else if isEmoji c then some (0, .emoji)
  else none

/-- What a character adds that goes on with an opening, and what comes behind
    the next one then. -/
def extend? (c : Char) : Opening → Option (Int × Follower)
  | .lineFeed => none
  | .ligature g =>
    match g.cross? c with
    | some g => some (0, .ofLigature (some g))
    | none => (g.extend? c).map fun (added, g) => (added, .ofLigature g)
  | .modifier => if isModifiable c then some (0, .of .emoji) else none
  | .emoji => none
  | .flags count => if isFlagLetter c then some (1, .of (.flags (count + 1))) else none
  | .joinedEmoji => (prepend? c).map fun (added, o) => (added, .of o)
  | .joinedKeycap => none
  | .joinedFlags count =>
    if isFlagLetter c then
      some (if count % 2 = 1 then -1 else 3, .of (.joinedFlags (count + 1)))
    else none
  | .tagLetters count =>
    if isTagLetter c && count < 6 then some (0, .of (.tagLetters (count + 1)))
    else if isTagDigit c && count < 5 then some (0, .of (.tagDigits 1))
    else if c.toNat = regionFlag && 3 ≤ count then some (0, .of .emoji)
    else none
  | .tagDigits count =>
    if isTagDigit c && count < 3 then some (0, .of (.tagDigits (count + 1)))
    else if c.toNat = regionFlag && count = 3 then some (0, .of .emoji)
    else none

/-- The same, with a joiner between the opening and what it joins. -/
def attach? (c : Char) (o : Opening) : Option (Int × Follower) :=
  match if c = joiner then o.join? else none with
  | some o => some (0, .of o)
  | none => o.extend? c

end Opening

/-- What comes behind a selector, and the selector itself. Where the selector
    may not stand in front of an opening, nothing but the selector counts. -/
def Follower.select (s : Selector) (f : Follower) : Follower :=
  if f.opening.any (·.allows s) then { f with selectors := f.selectors.insert s }
  else { selectors := [s] }

/-- What comes behind a character that has no picture. A selector that asks for
    one counts no more, and leaves nothing but the end of a ligature behind. -/
def Follower.withoutPicture (f : Follower) : Follower :=
  if .picture ∈ f.selectors then
    { opening := f.opening.filter (·.allows .sign), selectors := f.selectors.erase .picture }
  else f

/-- A quotation mark that has a form of full width. -/
def isCurlyQuote (c : Char) : Bool :=
  c = '\u2018' || c = '\u2019' || c = '\u201c' || c = '\u201d'

/-- What a character in the form that a selector asks for adds, if it has that
    form. -/
def selected? (c : Char) (f : Follower) : Option (Int × Follower) :=
  if .picture ∈ f.selectors ∧ hasPicture c then
    some (if f.opening.any (·.joinsPicture) then 0 else 2, .of .emoji)
  else if .sign ∈ f.selectors ∧ hasSign c then some (1, {})
  else if .full ∈ f.selectors ∧ isCurlyQuote c then some (2, {})
  else none

/-- What a control character or one of the oldest set adds: one column each,
    and one for a line end of two characters. -/
def simple (c : Char) (f : Follower) : Int × Follower :=
  if c = '\n' then (1, .of .lineFeed)
  else if c = '\r' ∧ f.opening = some .lineFeed then (0, {})
  else (1, {})

/-- What a character adds with which nothing behind it goes on. -/
def alone (c : Char) : Int × Follower :=
  match Letter.ofChar? c with
  | some l => (1, .ofLigature (some (.letter l)))
  | none =>
    if isFlagLetter c then (1, .of (.flags 1))
    else if isModifier c then (2, .of .modifier)
    else if isEmoji c then (2, .of .emoji)
    else (columns c, {})

/-- The last of the simple characters, a blank. -/
def lastSimple : Char := '\u00a0'

/-- What a character adds, and what comes behind the next one then. -/
def measure (c : Char) (f : Follower) : Int × Follower :=
  match selected? c f with
  | some found => found
  | none =>
    if c ≤ lastSimple then simple c f.withoutPicture
    else
      match Selector.ofChar? c with
      | some s => (0, f.withoutPicture.select s)
      | none => ((f.withoutPicture.opening.bind (·.attach? c)).getD (alone c))

/-- The columns of a text, and how it begins. -/
def widthFrom (cs : List Char) : Int × Follower :=
  cs.foldr (fun c (total, f) =>
    let (added, f) := measure c f
    (total + added, f)) (0, {})

/-- The columns of a text. -/
def width (s : String) : Nat :=
  (widthFrom s.toList).1.toNat

end Text

end Multidrop
