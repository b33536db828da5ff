import GraphBridge.Text.Columns
import GraphBridge.Text.Picture

/-!
# Ligatures

Letters of some scripts melt into one shape and then take fewer columns than they would apart. A
line is measured from its end, so a ligature is known by its last letter, and a letter further in
front either completes it or does not.
-/

namespace GraphBridge.Text

/-- The last letters of a ligature, which a letter in front of them may complete. -/
inductive Ligature where
  /-- An Arabic alef, which melts with a lam. -/
  | alef
  /-- A Hebrew lamed, which melts with an alef across a joiner. -/
  | lamed
  /-- A Buginese ya, which melts with a vowelled a across a joiner. -/
  | ya
  /-- A Buginese ya with its joiner and the vowel sign in front. -/
  | vowelledYa
  /-- A Tifinagh consonant, which melts with another one across a joiner of either kind. -/
  | consonant
  /-- A Tifinagh consonant with the consonant joiner in front. -/
  | boundConsonant
  /-- A Lisu tone letter that melts with one of the other kind. -/
  | toneLetter
  /-- An Old Turkic i, which melts with an ec across a joiner. -/
  | orkhonI
  /-- A Khmer letter that a coeng turns into a subscript. -/
  | subscript
  deriving DecidableEq, Repr

/-- The Arabic letters that are joined like alef. -/
def alefRanges : Ranges where
  entries := [
    (0x622, 0x623), (0x625, 0x625), (0x627, 0x627), (0x671, 0x673), (0x675, 0x675), (0x773, 0x774),
    (0x870, 0x882)]
  sorted := by decide +kernel

/-- The Arabic letters that are joined like lam. -/
def lamRanges : Ranges where
  entries := [(0x644, 0x644), (0x6b5, 0x6b8), (0x76a, 0x76a), (0x8a6, 0x8a6), (0x8c7, 0x8c7)]
  sorted := by decide +kernel

/-- The Tifinagh consonants that melt with each other. -/
def tifinaghRanges : Ranges where
  entries := [(0x2d31, 0x2d65), (0x2d6f, 0x2d6f)]
  sorted := by decide +kernel

/-- The Khmer letters that have a subscript form. -/
def subscriptRanges : Ranges where
  entries := [
    (0x1780, 0x1782), (0x1784, 0x1787), (0x1789, 0x178c), (0x178e, 0x1793), (0x1795, 0x1798),
    (0x179b, 0x179d), (0x17a0, 0x17a0), (0x17a2, 0x17a2), (0x17a7, 0x17a7), (0x17ab, 0x17ac),
    (0x17af, 0x17af)]
  sorted := by decide +kernel

/-- The marks and variation selectors that no ligature is broken by, alef's apart. -/
def transparentRanges : Ranges where
  entries := [
    (0x34f, 0x34f), (0x17b4, 0x17b5), (0x180b, 0x180d), (0x180f, 0x180f), (0xfe00, 0xfe0f),
    (0xe0100, 0xe01ef)]
  sorted := by decide +kernel

/-- The code points that take no column and yet part a lam from an alef. -/
def partingRanges : Ranges where
  entries := [
    (0x605, 0x605), (0x890, 0x891), (0x8e2, 0x8e2), (0x9be, 0x9be), (0x9d7, 0x9d7), (0xb3e, 0xb3e),
    (0xb57, 0xb57), (0xbbe, 0xbbe), (0xbd7, 0xbd7), (0xcc0, 0xcc0), (0xcc2, 0xcc2), (0xcc7, 0xcc8),
    (0xcca, 0xccb), (0xcd5, 0xcd6), (0xd3e, 0xd3e), (0xd4e, 0xd4e), (0xd57, 0xd57), (0xdcf, 0xdcf),
    (0xddf, 0xddf), (0x1160, 0x11ff), (0x1715, 0x1715), (0x1734, 0x1734), (0x180e, 0x180e),
    (0x1b35, 0x1b35), (0x1b3b, 0x1b3b), (0x1b3d, 0x1b3d), (0x1b43, 0x1b44), (0x1baa, 0x1baa),
    (0x1bf2, 0x1bf3), (0x200c, 0x200d), (0x2065, 0x2069), (0x302e, 0x302f), (0x3164, 0x3164),
    (0xa8fa, 0xa8fa), (0xa953, 0xa953), (0xa9c0, 0xa9c0), (0xd7b0, 0xd7c6), (0xd7cb, 0xd7fb),
    (0xff9e, 0xffa0), (0xfff0, 0xfff8), (0x111c0, 0x111c0), (0x111c2, 0x111c3), (0x11235, 0x11235),
    (0x1133e, 0x1133e), (0x1134d, 0x1134d), (0x11357, 0x11357), (0x113b8, 0x113b8),
    (0x113c2, 0x113c2), (0x113c5, 0x113c5), (0x113c7, 0x113c9), (0x113cf, 0x113cf),
    (0x113d1, 0x113d1), (0x114b0, 0x114b0), (0x114bd, 0x114bd), (0x115af, 0x115af),
    (0x116b6, 0x116b6), (0x11930, 0x11930), (0x1193d, 0x1193d), (0x1193f, 0x1193f),
    (0x11941, 0x11941), (0x11a84, 0x11a89), (0x11d46, 0x11d46), (0x11f02, 0x11f02),
    (0x11f41, 0x11f41), (0x16ff0, 0x16ff1), (0x1d165, 0x1d166), (0x1d16d, 0x1d172),
    (0xe0000, 0xe0000), (0xe0002, 0xe001f), (0xe0080, 0xe00ff), (0xe01f0, 0xe0fff)]
  sorted := by decide +kernel

/-- A character that takes no column and leaves a lam and an alef together. -/
def isPassedByAlef (c : Char) : Bool :=
  charWidth c == 0 && !partingRanges.contains c.toNat

namespace Ligature

/-- The ligature that a character may be the last letter of. -/
def ofChar? (c : Char) : Option Ligature :=
  if alefRanges.contains c.toNat then some .alef
  else if c.toNat == 0x5dc then some .lamed
  else if c.toNat == 0x1a10 then some .ya
  else if tifinaghRanges.contains c.toNat then some .consonant
  else if c.toNat == 0xa4fc || c.toNat == 0xa4fd then some .toneLetter
  else if c.toNat == 0x10c03 then some .orkhonI
  else if subscriptRanges.contains c.toNat then some .subscript
  else none

/-- Whether a joiner, a mark or a selector inside the ligature is passed over. -/
def isPatient (ligature : Ligature) : Bool :=
  ligature != .alef

/-- The columns that a character adds in front of the last letters of a ligature, and the letters
that are then waiting; nothing if the character does not belong to the ligature. `across` tells
whether a joiner was passed. A column may be given back. -/
def meet (across : Bool) (c : Char) : Ligature → Option (Int × Option Ligature)
  | .alef =>
      if lamRanges.contains c.toNat then some (0, none)
      else if isPassedByAlef c then some (0, some .alef)
      else none
  | .lamed => if across && c.toNat == 0x5d0 then some (0, none) else none
  | .ya => if across && c.toNat == 0x1a17 then some (0, some .vowelledYa) else none
  | .vowelledYa => if c.toNat == 0x1a15 then some (0, none) else none
  | .consonant =>
      if c.toNat == 0x2d7f then some (1, some .boundConsonant)
      else if across && tifinaghRanges.contains c.toNat then some (0, none)
      else none
  | .boundConsonant => if tifinaghRanges.contains c.toNat then some (-1, none) else none
  | .toneLetter => if 0xa4f8 ≤ c.toNat && c.toNat ≤ 0xa4fb then some (0, none) else none
  | .orkhonI => if across && c.toNat == 0x10c32 then some (0, none) else none
  | .subscript => if c.toNat == 0x17d2 then some (-1, none) else none

end Ligature

end GraphBridge.Text
