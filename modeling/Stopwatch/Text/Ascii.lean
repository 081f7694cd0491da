import Stopwatch.Text.Bytes

/-!
Names for the ASCII octets that the formats of this library treat specially, with the classes of digits and letters.
-/

namespace Stopwatch.Ascii

@[match_pattern] abbrev nul : UInt8 := 0x00
@[match_pattern] abbrev tab : UInt8 := 0x09
@[match_pattern] abbrev newline : UInt8 := 0x0a
@[match_pattern] abbrev carriageReturn : UInt8 := 0x0d
@[match_pattern] abbrev space : UInt8 := 0x20
@[match_pattern] abbrev bang : UInt8 := 0x21
@[match_pattern] abbrev doubleQuote : UInt8 := 0x22
@[match_pattern] abbrev hash : UInt8 := 0x23
@[match_pattern] abbrev dollar : UInt8 := 0x24
@[match_pattern] abbrev percent : UInt8 := 0x25
@[match_pattern] abbrev ampersand : UInt8 := 0x26
@[match_pattern] abbrev singleQuote : UInt8 := 0x27
@[match_pattern] abbrev openParen : UInt8 := 0x28
@[match_pattern] abbrev closeParen : UInt8 := 0x29
@[match_pattern] abbrev star : UInt8 := 0x2a
@[match_pattern] abbrev plus : UInt8 := 0x2b
@[match_pattern] abbrev comma : UInt8 := 0x2c
@[match_pattern] abbrev minus : UInt8 := 0x2d
@[match_pattern] abbrev dot : UInt8 := 0x2e
@[match_pattern] abbrev slash : UInt8 := 0x2f
@[match_pattern] abbrev zero : UInt8 := 0x30
@[match_pattern] abbrev colon : UInt8 := 0x3a
@[match_pattern] abbrev semicolon : UInt8 := 0x3b
@[match_pattern] abbrev less : UInt8 := 0x3c
@[match_pattern] abbrev equals : UInt8 := 0x3d
@[match_pattern] abbrev greater : UInt8 := 0x3e
@[match_pattern] abbrev question : UInt8 := 0x3f
@[match_pattern] abbrev at_ : UInt8 := 0x40
@[match_pattern] abbrev openBracket : UInt8 := 0x5b
@[match_pattern] abbrev backslash : UInt8 := 0x5c
@[match_pattern] abbrev closeBracket : UInt8 := 0x5d
@[match_pattern] abbrev caret : UInt8 := 0x5e
@[match_pattern] abbrev underscore : UInt8 := 0x5f
@[match_pattern] abbrev backquote : UInt8 := 0x60
@[match_pattern] abbrev openBrace : UInt8 := 0x7b
@[match_pattern] abbrev bar : UInt8 := 0x7c
@[match_pattern] abbrev closeBrace : UInt8 := 0x7d
@[match_pattern] abbrev tilde : UInt8 := 0x7e
@[match_pattern] abbrev delete : UInt8 := 0x7f

def isDigit (b : UInt8) : Bool := 0x30 ≤ b && b ≤ 0x39

def isUpper (b : UInt8) : Bool := 0x41 ≤ b && b ≤ 0x5a

def isLower (b : UInt8) : Bool := 0x61 ≤ b && b ≤ 0x7a

def isLetter (b : UInt8) : Bool := isUpper b || isLower b

/-- The small letter of a capital one; every other octet stays. -/
def lower (b : UInt8) : UInt8 := if isUpper b then b + 0x20 else b

/-- The capital letter of a small one; every other octet stays. -/
def upper (b : UInt8) : UInt8 := if isLower b then b - 0x20 else b

/-- The value of a digit in a base up to 36, letters of either case standing for ten and more. -/
def digitValue? (b : UInt8) : Option Nat :=
  if isDigit b then some (b.toNat - 0x30)
  else if isLetter b then some ((lower b).toNat - 0x61 + 10)
  else none

/-- Whether an octet is a hexadecimal digit. -/
def isHexDigit (b : UInt8) : Bool :=
  match digitValue? b with
  | some v => v < 16
  | none => false

/-- The digit that stands for a value below sixteen. -/
def hexDigit (n : Nat) : UInt8 := if n < 10 then (0x30 + n).toUInt8 else (0x57 + n).toUInt8

/-- The two hexadecimal digits of an octet. -/
def hexPair (b : UInt8) : Bytes := [hexDigit (b.toNat / 16), hexDigit (b.toNat % 16)]

/-- A number in so many hexadecimal digits, the high ones dropped. -/
def hexWord : Nat → Nat → Bytes
  | 0, _ => []
  | width + 1, n => hexWord width (n / 16) ++ [hexDigit (n % 16)]

end Stopwatch.Ascii
