import FeatureToggles.Unicode.Intervals

/-!
# Blanks

The characters that separate words: spaces, line and paragraph separators, and the control characters
that Unicode's bidirectional classes count as separators (Unicode 14.0).
-/

namespace FeatureToggles.Unicode

/-- The code points of blanks, in increasing order. -/
def blankIntervals : List (Nat × Nat) :=
  [(0x9, 0xd), (0x1c, 0x20), (0x85, 0x85), (0xa0, 0xa0), (0x1680, 0x1680), (0x2000, 0x200a),
   (0x2028, 0x2029), (0x202f, 0x202f), (0x205f, 0x205f), (0x3000, 0x3000)]

/-- Whether `c` separates words. -/
def isBlank (c : CodePoint) : Bool :=
  covers blankIntervals c.toNat

/-- Whether `c` is white space: a blank other than the control characters that separate files, groups,
records and units. -/
def isWhiteSpace (c : CodePoint) : Bool :=
  isBlank c && !('\x1c' ≤ c && c ≤ '\x1f')

end FeatureToggles.Unicode
