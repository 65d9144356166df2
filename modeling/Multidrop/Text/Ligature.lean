import Multidrop.Text.Columns

/-!
# Ligatures

In some scripts several letters are written as one glyph, which is narrower
than the letters are on their own. A ligature is found from its end: a letter
that may end one waits for what stands in front of it, and marks that are not
seen may stand between.

## Main definitions

* `Letter`: The letters that may end a ligature.
* `Ligature`: The end of a ligature, as far as it has been read.
* `Ligature.cross?`: A character that a ligature reaches across.
* `Ligature.extend?`: A character that belongs to a ligature.
-/

namespace Multidrop

namespace Text

/-- A letter that may end a ligature. -/
inductive Letter where
  | lamed
  | alef
  /-- A consonant that goes under the one in front of it. -/
  | khmer
  | ya
  | tifinagh
  /-- A tone that closes a pair of tones. -/
  | lisu
  | orkhon
  /-- A vowel sign that is a part of others. -/
  | kiratE
  | kiratAi
  deriving DecidableEq

/-- The end of a ligature. -/
inductive Ligature where
  | letter (l : Letter)
  /-- A letter with a joiner in front of it. -/
  | joined (l : Letter)
  /-- A vowel sign in front of a joined letter. -/
  | voweled
  /-- A letter that is bound to the one in front of it. -/
  | bound
  deriving DecidableEq

/-- The joiner, which is not seen and asks for a ligature. -/
def joiner : Char := '\u200d'

/-- The ranges of the letters alef. -/
def alefs : List (Nat × Nat) :=
  [(0x622, 0x623), (0x625, 0x625), (0x627, 0x627), (0x671, 0x673), (0x675, 0x675),
    (0x773, 0x774), (0x870, 0x882)]

/-- The ranges of the letters lam. -/
def lams : List (Nat × Nat) :=
  [(0x644, 0x644), (0x6b5, 0x6b8), (0x76a, 0x76a), (0x8a6, 0x8a6), (0x8c7, 0x8c7)]

/-- The ranges of the consonants that may go under another one. -/
def subjoinable : List (Nat × Nat) :=
  [(0x1780, 0x1782), (0x1784, 0x1787), (0x1789, 0x178c), (0x178e, 0x1793), (0x1795, 0x1798),
    (0x179b, 0x179d), (0x17a0, 0x17a0), (0x17a2, 0x17a2), (0x17a7, 0x17a7), (0x17ab, 0x17ac),
    (0x17af, 0x17af)]

/-- The ranges of the consonants that may be bound to another one. -/
def bindable : List (Nat × Nat) :=
  [(0x2d31, 0x2d65), (0x2d6f, 0x2d6f)]

/-- The ranges of marks that nearly every ligature reaches across: joiners of
    glyphs, selectors of a form, and vowels that are not written. -/
def crossed : List (Nat × Nat) :=
  [(0x34f, 0x34f), (0x17b4, 0x17b5), (0x180b, 0x180d), (0x180f, 0x180f), (0x200d, 0x200d),
    (0xfe00, 0xfe0f), (0xe0100, 0xe01ef)]

/-- The ranges of characters that take no column and yet keep letters from
    being joined. -/
def separating : List (Nat × Nat) :=
  [(0x605, 0x605), (0x890, 0x891), (0x8e2, 0x8e2), (0x9be, 0x9be), (0x9d7, 0x9d7), (0xb3e, 0xb3e),
    (0xb57, 0xb57), (0xbbe, 0xbbe), (0xbd7, 0xbd7), (0xcc0, 0xcc0), (0xcc2, 0xcc2),
    (0xcc7, 0xcc8), (0xcca, 0xccb), (0xcd5, 0xcd6), (0xd3e, 0xd3e), (0xd4e, 0xd4e),
    (0xd57, 0xd57), (0xdcf, 0xdcf), (0xddf, 0xddf), (0x1160, 0x11ff), (0x1715, 0x1715),
    (0x1734, 0x1734), (0x180e, 0x180e), (0x1b35, 0x1b35), (0x1b3b, 0x1b3b), (0x1b3d, 0x1b3d),
    (0x1b43, 0x1b44), (0x1baa, 0x1baa), (0x1bf2, 0x1bf3), (0x200c, 0x200d), (0x2065, 0x2069),
    (0x302e, 0x302f), (0x3164, 0x3164), (0xa8fa, 0xa8fa), (0xa953, 0xa953), (0xa9c0, 0xa9c0),
    (0xd7b0, 0xd7c6), (0xd7cb, 0xd7fb), (0xffa0, 0xffa0), (0xfff0, 0xfff8), (0x111c0, 0x111c0),
    (0x111c2, 0x111c3), (0x11235, 0x11235), (0x1133e, 0x1133e), (0x1134d, 0x1134d),
    (0x11357, 0x11357), (0x113b8, 0x113b8), (0x113c2, 0x113c2), (0x113c5, 0x113c5),
    (0x113c7, 0x113c9), (0x113cf, 0x113cf), (0x113d1, 0x113d1), (0x114b0, 0x114b0),
    (0x114bd, 0x114bd), (0x115af, 0x115af), (0x116b6, 0x116b6), (0x11930, 0x11930),
    (0x1193d, 0x1193d), (0x1193f, 0x1193f), (0x11941, 0x11941), (0x11a84, 0x11a89),
    (0x11d46, 0x11d46), (0x11f02, 0x11f02), (0x11f41, 0x11f41), (0x16ff0, 0x16ff1),
    (0x1d165, 0x1d166), (0x1d16d, 0x1d172), (0xe0000, 0xe0000), (0xe0002, 0xe001f),
    (0xe0080, 0xe00ff), (0xe01f0, 0xe0fff)]

/-- The letter of a character that may end a ligature. -/
def Letter.ofChar? (c : Char) : Option Letter :=
  if c = '\u05dc' then some .lamed
  else if inRanges alefs c.toNat then some .alef
  else if inRanges subjoinable c.toNat then some .khmer
  else if c = '\u1a10' then some .ya
  else if inRanges bindable c.toNat then some .tifinagh
  else if c = '\ua4fc' ∨ c = '\ua4fd' then some .lisu
  else if c.toNat = 0x10c03 then some .orkhon
  else if c.toNat = 0x16d67 then some .kiratE
  else if c.toNat = 0x16d68 then some .kiratAi
  else none

/-- A letter with a joiner in front of it. Only some make use of it. -/
def Letter.join : Letter → Ligature
  | .lamed => .joined .lamed
  | .ya => .joined .ya
  | .tifinagh => .joined .tifinagh
  | .orkhon => .joined .orkhon
  | l => .letter l

namespace Ligature

/-- What a ligature is behind a character that it reaches across, if it
    does. -/
def cross? (c : Char) : Ligature → Option Ligature
  | .letter .kiratE => none
  | .letter .kiratAi => none
  | .letter .alef =>
    if isUnseen c && !inRanges separating c.toNat then some (.letter .alef) else none
  | .letter l =>
    if c = joiner then some l.join
    else if inRanges crossed c.toNat then some (.letter l)
    else none
  | g => if inRanges crossed c.toNat then some g else none

/-- What a character adds to the columns of a ligature that it belongs to,
    and what the ligature is behind it, if it is not complete. -/
def extend? (c : Char) : Ligature → Option (Int × Option Ligature)
  | .letter .alef => if inRanges lams c.toNat then some (0, none) else none
  | .joined .lamed => if c = '\u05d0' then some (0, none) else none
  | .letter .khmer => if c = '\u17d2' then some (-1, none) else none
  | .joined .ya => if c = '\u1a17' then some (0, some .voweled) else none
  | .voweled => if c = '\u1a15' then some (0, none) else none
  | .letter .tifinagh => if c = consonantJoiner then some (1, some .bound) else none
  | .joined .tifinagh =>
    if c = consonantJoiner then some (1, some .bound)
    else if inRanges bindable c.toNat then some (0, none)
    else none
  | .bound => if inRanges bindable c.toNat then some (-1, none) else none
  | .letter .lisu => if '\ua4f8' ≤ c ∧ c ≤ '\ua4fb' then some (0, none) else none
  | .joined .orkhon => if c.toNat = 0x10c32 then some (0, none) else none
  | .letter .kiratE =>
    match c.toNat with
    | 0x16d63 => some (0, none)
    | 0x16d67 => some (0, some (.letter .kiratAi))
    | 0x16d68 => some (1, some (.letter .kiratE))
    | 0x16d69 => some (0, none)
    | _ => none
  | .letter .kiratAi => if c.toNat = 0x16d63 then some (0, none) else none
  | _ => none

/-- Whether a selector may stand in front of the end of a ligature. -/
def allowsSelector : Ligature → Bool
  | .letter .kiratE => false
  | .letter .kiratAi => false
  | _ => true

end Ligature

end Text

end Multidrop
