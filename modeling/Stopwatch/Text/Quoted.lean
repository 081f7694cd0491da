import Stopwatch.Text.Printable
import Stopwatch.Text.Utf8

/-!
Quoted text: how names and values appear inside messages. Printable characters stand for themselves; quotes,
backslashes and everything else are written as escapes, so that the quoted form determines the octets.
-/

namespace Stopwatch.Quoted

/-- The letter that names a control character in an escape. -/
def controlName? (n : Nat) : Option UInt8 :=
  match n with
  | 0x07 => some 0x61
  | 0x08 => some 0x62
  | 0x0c => some 0x66
  | 0x0a => some 0x6e
  | 0x0d => some 0x72
  | 0x09 => some 0x74
  | 0x0b => some 0x76
  | _ => none

/-- An octet as a two-digit escape. -/
def octetEscape (b : UInt8) : Bytes := Ascii.backslash :: 0x78 :: Ascii.hexPair b

/-- The quoted form of a character, between marks of the given kind. -/
def charIn (mark : Char) (c : Char) : Bytes :=
  let n := c.toNat
  if c == mark || c == '\\' then Ascii.backslash :: Utf8.encode c
  else if isPrintable c then Utf8.encode c
  else match controlName? n with
    | some letter => [Ascii.backslash, letter]
    | none =>
      if n < 0x20 || n == 0x7f then octetEscape n.toUInt8
      else if n < 0x10000 then Ascii.backslash :: 0x75 :: Ascii.hexWord 4 n
      else Ascii.backslash :: 0x55 :: Ascii.hexWord 8 n

/-- The quoted form of one glyph in double quotes. -/
def glyph : Glyph → Bytes
  | .char c => charIn '"' c
  | .octet b => octetEscape b

end Stopwatch.Quoted

namespace Stopwatch

/-- The text in double quotes. -/
def quote (s : Bytes) : Bytes :=
  Ascii.doubleQuote :: (s.glyphs.flatMap Quoted.glyph ++ [Ascii.doubleQuote])

/-- A character in single quotes. -/
def quoteChar (c : Char) : Bytes :=
  Ascii.singleQuote :: (Quoted.charIn '\'' c ++ [Ascii.singleQuote])

end Stopwatch
