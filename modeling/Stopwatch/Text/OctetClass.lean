import Stopwatch.Text.Ascii

/-!
Classes of octets that have names in patterns, such as the letters and the digits.
-/

namespace Stopwatch

/-- The classes of octets by name. -/
def octetClasses : List (String × (UInt8 → Bool)) :=
  let graph (b : UInt8) : Bool := 0x21 ≤ b && b ≤ 0x7e
  [("alnum", fun b => Ascii.isLetter b || Ascii.isDigit b), ("alpha", Ascii.isLetter),
    ("blank", fun b => b == Ascii.space || b == Ascii.tab), ("cntrl", fun b => b < 0x20 || b == 0x7f),
    ("digit", Ascii.isDigit), ("graph", graph), ("lower", Ascii.isLower), ("print", fun b => graph b || b == Ascii.space),
    ("punct", fun b => graph b && !Ascii.isLetter b && !Ascii.isDigit b),
    ("space", fun b => b == Ascii.space || (0x09 ≤ b && b ≤ 0x0d)), ("upper", Ascii.isUpper),
    ("xdigit", Ascii.isHexDigit)]

/-- The class that a text such as `:alpha:]` starts with, and what follows it. -/
def octetClass? (s : Bytes) : Option ((UInt8 → Bool) × Bytes) :=
  octetClasses.findSome? fun (name, test) =>
    let mark := utf8 ":" ++ utf8 name ++ utf8 ":]"
    if Bytes.startsWith mark s then some (test, s.drop mark.length) else none

/-- All octets, in order. -/
def allOctets : Bytes := (List.range 256).map fun n => n.toUInt8

end Stopwatch
