/-!
Byte strings. Names, arguments and program output may hold any octets, so the text type of the library is a list of
octets; UTF-8 is one way to read it.
-/

namespace Stopwatch

/-- A string of octets. -/
abbrev Bytes := List UInt8

/-- The octets of a text literal. -/
def utf8 (s : String) : Bytes := s.toUTF8.data.toList

namespace Bytes

/-- Whether `s` begins with `p`. -/
def startsWith (p s : Bytes) : Bool := p.isPrefixOf s

/-- Whether `s` ends with `p`. -/
def endsWith (p s : Bytes) : Bool := p.isSuffixOf s

/-- The two sides of the first occurrence of an octet. -/
def cut (sep : UInt8) (s : Bytes) : Option (Bytes × Bytes) :=
  match s.span (· != sep) with
  | (_, []) => none
  | (before, _ :: after) => some (before, after)

/-- The two sides of the last occurrence of an octet. -/
def cutLast (sep : UInt8) (s : Bytes) : Option (Bytes × Bytes) :=
  (cut sep s.reverse).map fun (after, before) => (before.reverse, after.reverse)

/-- The pieces between the occurrences of an octet; always at least one. -/
def split (sep : UInt8) (s : Bytes) : List Bytes := s.splitOn sep

/-- The pieces in order, with a separator between each two. -/
def join (sep : Bytes) (pieces : List Bytes) : Bytes := sep.intercalate pieces

/-- A text written so many times. -/
def times (n : Nat) (s : Bytes) : Bytes := (List.replicate n s).flatten

/-- The line that a message makes in a log. A line end at its end is that of the line itself. -/
def logLine (message : Bytes) : Bytes := if message.getLast? = some 0x0a then message.dropLast else message

/-- Whether `p` occurs somewhere in `s`. -/
def includes (p : Bytes) : Bytes → Bool
  | [] => p.isEmpty
  | b :: rest => startsWith p (b :: rest) || includes p rest

/-- Spaces on the left up to a width, counted in octets. -/
def padLeft (width : Nat) (s : Bytes) : Bytes := List.replicate (width - s.length) 0x20 ++ s

end Bytes

end Stopwatch
