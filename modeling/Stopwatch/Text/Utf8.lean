import Stopwatch.Text.Ascii

/-!
UTF-8 as a view of byte strings. Every byte string is a sequence of glyphs, each a well-formed character or a single
octet that belongs to none; writing the glyphs out again gives the byte string back.
-/

namespace Stopwatch

/-- One unit of text: a character, or an octet that is part of no character. -/
inductive Glyph where
  | char (c : Char)
  | octet (b : UInt8)
  deriving DecidableEq, Repr, Inhabited

namespace Utf8

/-- The octets of a character. -/
def encode (c : Char) : Bytes :=
  let n := c.toNat
  if n < 0x80 then [n.toUInt8]
  else if n < 0x800 then [(0xc0 + n / 0x40).toUInt8, (0x80 + n % 0x40).toUInt8]
  else if n < 0x10000 then
    [(0xe0 + n / 0x1000).toUInt8, (0x80 + n / 0x40 % 0x40).toUInt8, (0x80 + n % 0x40).toUInt8]
  else
    [(0xf0 + n / 0x40000).toUInt8, (0x80 + n / 0x1000 % 0x40).toUInt8, (0x80 + n / 0x40 % 0x40).toUInt8,
      (0x80 + n % 0x40).toUInt8]

/-- Whether an octet can stand inside a character after its first one. -/
def isTail (b : UInt8) : Bool := 0x80 ≤ b && b ≤ 0xbf

/-- The character of a number that is known to be one. -/
def toChar? (least n : Nat) : Option Char :=
  if least ≤ n && n.isValidChar then some (Char.ofNat n) else none

/-- The two octets as one character. -/
def two? (a b : UInt8) : Option Char :=
  if 0xc2 ≤ a && a ≤ 0xdf && isTail b then toChar? 0x80 ((a.toNat - 0xc0) * 0x40 + (b.toNat - 0x80)) else none

/-- The three octets as one character; surrogates are none. -/
def three? (a b c : UInt8) : Option Char :=
  if 0xe0 ≤ a && a ≤ 0xef && isTail b && isTail c then
    toChar? 0x800 ((a.toNat - 0xe0) * 0x1000 + (b.toNat - 0x80) * 0x40 + (c.toNat - 0x80))
  else none

/-- The four octets as one character. -/
def four? (a b c d : UInt8) : Option Char :=
  if 0xf0 ≤ a && a ≤ 0xf4 && isTail b && isTail c && isTail d then
    toChar? 0x10000
      ((a.toNat - 0xf0) * 0x40000 + (b.toNat - 0x80) * 0x1000 + (c.toNat - 0x80) * 0x40 + (d.toNat - 0x80))
  else none

/-- Reads the glyphs of a byte string onto those read before. -/
def read : Bytes → List Glyph → List Glyph
  | [], seen => seen.reverse
  | a :: r, seen =>
    if a < 0x80 then read r (.char (Char.ofNat a.toNat) :: seen) else
    match r with
    | [] => read [] (.octet a :: seen)
    | b :: r1 =>
      match two? a b with
      | some c => read r1 (.char c :: seen)
      | none =>
        match r1 with
        | [] => read [b] (.octet a :: seen)
        | c :: r2 =>
          match three? a b c with
          | some x => read r2 (.char x :: seen)
          | none =>
            match r2 with
            | [] => read [b, c] (.octet a :: seen)
            | d :: r3 =>
              match four? a b c d with
              | some x => read r3 (.char x :: seen)
              | none => read (b :: c :: d :: r3) (.octet a :: seen)

end Utf8

/-- The octets of a glyph. -/
def Glyph.bytes : Glyph → Bytes
  | .char c => Utf8.encode c
  | .octet b => [b]

/-- The glyphs of a byte string, left to right. -/
def Bytes.glyphs (s : Bytes) : List Glyph := Utf8.read s []

/-- The byte string that a sequence of glyphs spells. -/
def Bytes.ofGlyphs (gs : List Glyph) : Bytes := gs.flatMap Glyph.bytes

/-- The characters of a byte string that is UTF-8 throughout. -/
def Bytes.chars? (s : Bytes) : Option (List Char) :=
  s.glyphs.mapM fun
    | .char c => some c
    | .octet _ => none

/-- The text of a byte string that is UTF-8 throughout. -/
def Bytes.string? (s : Bytes) : Option String := (chars? s).map String.ofList

/-- The octets of a sequence of characters. -/
def Bytes.ofChars (cs : List Char) : Bytes := cs.flatMap Utf8.encode

/-- Each octet that is part of no character replaced by U+FFFD. -/
def Bytes.repaired (s : Bytes) : Bytes :=
  s.glyphs.flatMap fun
    | .char c => Utf8.encode c
    | .octet _ => Utf8.encode '�'

/-- Spaces on the right up to a width, counted in glyphs; longer text stays whole. -/
def Bytes.padRight (width : Nat) (s : Bytes) : Bytes :=
  s ++ List.replicate (width - s.glyphs.length) Ascii.space

end Stopwatch
