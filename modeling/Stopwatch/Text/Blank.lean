import Stopwatch.Text.Utf8

/-!
White space and trimming. Blank characters are those with the Unicode property White_Space; an octet that belongs to no
character is never blank.
-/

namespace Stopwatch

/-- Whether a character has the property White_Space. -/
def isBlank (c : Char) : Bool :=
  let n := c.toNat
  (0x09 ≤ n && n ≤ 0x0d) || n == 0x20 || n == 0x85 || n == 0xa0 || n == 0x1680
    || (0x2000 ≤ n && n ≤ 0x200a) || n == 0x2028 || n == 0x2029 || n == 0x202f || n == 0x205f || n == 0x3000

/-- Whether a glyph is a blank character. -/
def Glyph.blank : Glyph → Bool
  | .char c => isBlank c
  | .octet _ => false

/-- The glyphs without the blank ones at either end. -/
def trimGlyphs (gs : List Glyph) : List Glyph := ((gs.dropWhile Glyph.blank).reverse.dropWhile Glyph.blank).reverse

/-- The text without the white space at either end. -/
def Bytes.trim (s : Bytes) : Bytes := ofGlyphs (trimGlyphs s.glyphs)

end Stopwatch
