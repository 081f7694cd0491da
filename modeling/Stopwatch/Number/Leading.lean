import Stopwatch.Number.Reader

/-!
Numbers at the start of a text, as far as they go: white space, a sign, and the longest numeral. What follows is left to
the caller.
-/

namespace Stopwatch.Leading

def isSpace (b : UInt8) : Bool := b == Ascii.space || (0x09 ≤ b && b ≤ 0x0d)

/-- Whether a text goes on with a digit of a base. -/
def digitFollows (base : Nat) (s : Bytes) : Bool :=
  match s.head?.bind Ascii.digitValue? with
  | some d => d < base
  | none => false

/-- The value of the digits of a base at the start of a text, and what follows them. -/
def digits (base : Nat) : Bytes → Nat → Nat × Bytes
  | [], n => (n, [])
  | b :: rest, n =>
    match Ascii.digitValue? b with
    | some d => if d < base then digits base rest (n * base + d) else (n, b :: rest)
    | none => (n, b :: rest)

/-- The base of a numeral by its mark, and where its digits start. A mark without digits behind it is none. -/
def baseOf (s : Bytes) : Nat × Bytes :=
  match s with
  | Ascii.zero :: x :: rest =>
    let mark := Ascii.lower x
    if mark == 0x78 && digitFollows 16 rest then (16, rest)
    else if mark == 0x62 && digitFollows 2 rest then (2, rest)
    else (8, s)
  | Ascii.zero :: _ => (8, s)
  | s => (10, s)

/-- A whole number at the start of a text, in a base or in the one that it announces; none if no digit is there. -/
def integer? (base : Option Nat) (s : Bytes) : Option (Int × Bytes) :=
  let body := s.dropWhile isSpace
  let negative := body.head? = some Ascii.minus
  let body := Integer.unsigned body
  let (base, body) := match base with
    | some b => (b, body)
    | none => baseOf body
  if digitFollows base body then
    let (n, rest) := digits base body 0
    some (if negative then -(n : Int) else n, rest)
  else none

/-- The nearest number of 64 bits, and whether it is the number itself. -/
def clamp (n : Int) : Int64 × Bool :=
  if n < -(Int.pow 2 63) then (Int64.minValue, false)
  else if Int.pow 2 63 ≤ n then (Int64.maxValue, false)
  else (Int64.ofInt n, true)

/-- A whole text as a number of 64 bits, white space around it allowed. With `blank` nothing at all counts as zero. -/
def whole? (base : Option Nat) (blank : Bool) (s : Bytes) : Option Int64 :=
  match integer? base s with
  | some (n, rest) =>
    let (value, fits) := clamp n
    if fits && rest.all isSpace then some value else none
  | none => if blank && s.all isSpace then some 0 else none

/-- An unsigned decimal numeral with an exponent, or a hexadecimal one. -/
def size? (s : Bytes) : Option (Float × Bytes) :=
  let hex := match s with
    | Ascii.zero :: x :: rest => Ascii.lower x == 0x78 && (digitFollows 16 rest
        || (rest.head? = some Ascii.dot && digitFollows 16 rest.tail))
    | _ => false
  let base := if hex then 16 else 10
  let start := if hex then s.drop 2 else s
  let (whole, rest) := digits base start 0
  let point := rest.head? = some Ascii.dot
  let (mantissa, after) := if point then digits base rest.tail whole else (whole, rest)
  let places : Int := if point then (rest.tail.length : Int) - after.length else 0
  if start.length = rest.length && places = 0 then none
  else
    let mark := if hex then 0x70 else 0x65
    let (e, after) : Int × Bytes := match after with
      | m :: tail =>
        if Ascii.lower m == mark then
          match FloatReader.exponent? tail with
          | some (e, rest) => (e, rest)
          | none => (0, after)
        else (0, after)
      | [] => (0, [])
    let value := if hex then FloatReader.ofBinary mantissa (e - 4 * places) else FloatReader.ofDecimal mantissa (e - places)
    some (value, after)

/-- A double at the start of a text; none if no number is there. -/
def double? (s : Bytes) : Option (Float × Bytes) :=
  let body := s.dropWhile isSpace
  let negative := body.head? = some Ascii.minus
  let body := Integer.unsigned body
  let sign (x : Float) : Float := if negative then -x else x
  let low := body.map Ascii.lower
  if Bytes.startsWith (utf8 "infinity") low then some (sign (FloatReader.infinity false), body.drop 8)
  else if Bytes.startsWith (utf8 "inf") low then some (sign (FloatReader.infinity false), body.drop 3)
  else if Bytes.startsWith (utf8 "nan") low then some (0.0 / 0.0, body.drop 3)
  else (size? body).map fun (x, rest) => (sign x, rest)

end Stopwatch.Leading
