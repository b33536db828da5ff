import GraphBridge.Text.Ranges

/-!
# White space

The ranges of the Unicode property `White_Space`.
-/

namespace GraphBridge.Text

/-- The code points with the property `White_Space`. -/
def blankRanges : Ranges where
  entries := [
    (0x9, 0xd), (0x20, 0x20), (0x85, 0x85), (0xa0, 0xa0), (0x1680, 0x1680), (0x2000, 0x200a),
    (0x2028, 0x2029), (0x202f, 0x202f), (0x205f, 0x205f), (0x3000, 0x3000)]
  sorted := by decide +kernel

/-- A white-space character. -/
def isBlank (c : Char) : Bool :=
  blankRanges.contains c.toNat

end GraphBridge.Text
