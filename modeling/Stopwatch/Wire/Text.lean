import Stopwatch.Text.Utf8

/-!
Texts on the wire: in double quotes, with escapes for quotes, backslashes and control characters, and for the few
characters that do harm inside a web page. What is no UTF-8 goes out as U+FFFD and comes in as U+FFFD.
-/

namespace Stopwatch.Wire

/-- The letter that names a control character in an escape. Backspace and form feed have one as well, where older writers
give them by number; a reader takes either. -/
def controlLetter? (n : Nat) : Option UInt8 :=
  match n with
  | 0x08 => some 0x62
  | 0x0c => some 0x66
  | 0x0a => some 0x6e
  | 0x0d => some 0x72
  | 0x09 => some 0x74
  | _ => none

/-- An escape by number. -/
def numbered (n : Nat) : Bytes := Ascii.backslash :: 0x75 :: Ascii.hexWord 4 n

/-- Whether a character is always written by number: the angle brackets, the ampersand and two line separators. -/
def isHarmful (c : Char) : Bool := c == '<' || c == '>' || c == '&' || c == '\u2028' || c == '\u2029'

/-- A character inside a text. -/
def writeChar (c : Char) : Bytes :=
  if c == '"' || c == '\\' then Ascii.backslash :: Utf8.encode c
  else
    match controlLetter? c.toNat with
    | some letter => [Ascii.backslash, letter]
    | none => if c.toNat < 0x20 || isHarmful c then numbered c.toNat else Utf8.encode c

def writeGlyph : Glyph → Bytes
  | .char c => writeChar c
  | .octet _ => numbered 0xfffd

/-- A text with its quotes. -/
def writeText (s : Bytes) : Bytes :=
  Ascii.doubleQuote :: (s.glyphs.flatMap writeGlyph ++ [Ascii.doubleQuote])

/-- The octet that a letter after a backslash stands for. -/
def escaped? (b : UInt8) : Option UInt8 :=
  match b with
  | 0x62 => some 0x08
  | 0x66 => some 0x0c
  | 0x6e => some 0x0a
  | 0x72 => some 0x0d
  | 0x74 => some 0x09
  | 0x22 => some 0x22
  | 0x5c => some 0x5c
  | 0x2f => some 0x2f
  | _ => none

/-- The number of four hexadecimal digits. -/
def word? (a b c d : UInt8) : Option Nat :=
  if Ascii.isHexDigit a && Ascii.isHexDigit b && Ascii.isHexDigit c && Ascii.isHexDigit d then
    some ([a, b, c, d].foldl (fun n x => n * 16 + (Ascii.digitValue? x).getD 0) 0)
  else none

def isHighSurrogate (n : Nat) : Bool := 0xd800 ≤ n && n < 0xdc00

def isLowSurrogate (n : Nat) : Bool := 0xdc00 ≤ n && n < 0xe000

/-- The octets of a number in an escape; half of a pair stands for U+FFFD. -/
def charOf (n : Nat) : Bytes :=
  if isHighSurrogate n || isLowSurrogate n then Utf8.encode '\ufffd' else Utf8.encode (Char.ofNat n)

/-- The octets of a pair of surrogates. -/
def pairOf (high low : Nat) : Bytes :=
  Utf8.encode (Char.ofNat (0x10000 + (high - 0xd800) * 0x400 + (low - 0xdc00)))

/-- Reads a text up to its closing quote, onto the octets read before in reverse. Gives the octets and what follows. -/
def readBody : Bytes → Bytes → Option (Bytes × Bytes)
  | [], _ => none
  | b :: rest, seen =>
    if b == Ascii.doubleQuote then some (seen.reverse, rest)
    else if b == Ascii.backslash then
      match rest with
      | [] => none
      | c :: rest =>
        match escaped? c with
        | some v => readBody rest (v :: seen)
        | none =>
          if c != 0x75 then none
          else
            match rest with
            | a :: b :: c :: d :: rest =>
              match word? a b c d with
              | none => none
              | some n =>
                match rest with
                | Ascii.backslash :: 0x75 :: e :: f :: g :: h :: after =>
                  match word? e f g h with
                  | none => none
                  | some m =>
                    if isHighSurrogate n && isLowSurrogate m then
                      readBody after ((pairOf n m).reverse ++ seen)
                    else readBody (Ascii.backslash :: 0x75 :: e :: f :: g :: h :: after) ((charOf n).reverse ++ seen)
                | rest => readBody rest ((charOf n).reverse ++ seen)
            | _ => none
    else if b < 0x20 then none
    else readBody rest (b :: seen)

/-- Reads a text whose opening quote has been read. -/
def readText (s : Bytes) : Option (Bytes × Bytes) := (readBody s []).map fun (body, rest) => (Bytes.repaired body, rest)

end Stopwatch.Wire
