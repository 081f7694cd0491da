import Stopwatch.Number.Layout

/-!
Reading doubles: decimal and hexadecimal numerals, the words for infinity and for no number. The result is the double
nearest to the exact value; a value beyond the largest double is refused, one below the smallest becomes zero.
-/

namespace Stopwatch.FloatReader

/-- A numeral read digit by digit: `mantissa · base^(-places)`. -/
structure Scan where
  mantissa : Nat := 0
  places : Nat := 0
  sawDot : Bool := false
  sawDigits : Bool := false

/-- Reads digits, at most one point and underscores; the rest begins with the first octet that is none of these. -/
def digits (base : Nat) : Bytes → Scan → Scan × Bytes
  | [], scan => (scan, [])
  | b :: rest, scan =>
    if b == Ascii.underscore then digits base rest scan
    else if b == Ascii.dot then
      if scan.sawDot then (scan, b :: rest) else digits base rest { scan with sawDot := true }
    else match Ascii.digitValue? b with
      | some d =>
        if d < base then
          digits base rest
            { scan with
              mantissa := scan.mantissa * base + d
              places := if scan.sawDot then scan.places + 1 else scan.places
              sawDigits := true }
        else (scan, b :: rest)
      | none => (scan, b :: rest)

/-- Reads the digits and underscores of an exponent; from the fifth digit on the value stays, being out of range. -/
def exponentDigits : Bytes → Nat → Nat × Bytes
  | [], n => (n, [])
  | b :: rest, n =>
    if Ascii.isDigit b then
      exponentDigits rest (if n < 10000 then n * 10 + (b.toNat - 0x30) else n)
    else if b == Ascii.underscore then exponentDigits rest n
    else (n, b :: rest)

/-- The exponent after its mark, if it begins with a digit behind an optional sign. -/
def exponent? (s : Bytes) : Option (Int × Bytes) :=
  let body := Integer.unsigned s
  match body with
  | b :: _ =>
    if Ascii.isDigit b then
      let (n, rest) := exponentDigits body 0
      some (if s.head? = some Ascii.minus then -(n : Int) else n, rest)
    else none
  | [] => none

/-- The infinity of a sign. -/
def infinity (negative : Bool) : Float := if negative then -1.0 / 0.0 else 1.0 / 0.0

/-- The double nearest to `m · 10ᵉ`; infinite when out of range. -/
def ofDecimal (m : Nat) (e : Int) : Float :=
  let size : Int := (Integer.ofNat m).length
  if m = 0 || size + e < -400 then 0.0
  else if 400 < size + e then infinity false
  else Float.ofScientific m (e < 0) e.natAbs

/-- The double nearest to `m · 2ᵉ`; infinite when out of range. -/
def ofBinary (m : Nat) (e : Int) : Float :=
  let size : Int := m.log2
  if m = 0 || size + e < -1200 then 0.0
  else if 1200 < size + e then infinity false
  else if 0 ≤ e then Float.ofScientific (m * Nat.pow 2 e.toNat) false 0
  else Float.ofScientific (m * Nat.pow 5 e.natAbs) true e.natAbs

/-- The size of an unsigned numeral, if the whole text is one. -/
def size? (s : Bytes) : Option Float :=
  let hex := match s with
    | Ascii.zero :: x :: _ :: _ => Ascii.lower x == 0x78
    | _ => false
  let base := if hex then 16 else 10
  let (scan, rest) := digits base (if hex then s.drop 2 else s) {}
  if !scan.sawDigits || (s.contains Ascii.underscore && !Integer.underscoresOk s) then none
  else
    let scaled (e : Int) : Float :=
      if hex then ofBinary scan.mantissa (e - 4 * scan.places) else ofDecimal scan.mantissa (e - scan.places)
    match rest with
    | [] => if hex then none else some (scaled 0)
    | mark :: after =>
      if Ascii.lower mark == (if hex then 0x70 else 0x65) then
        match exponent? after with
        | some (e, []) => some (scaled e)
        | _ => none
      else none

/-- The words for numbers without digits, letters of either case. -/
def word? (s : Bytes) : Option Float :=
  let body := (Integer.unsigned s).map Ascii.lower
  if body == utf8 "inf" || body == utf8 "infinity" then some (infinity (s.head? = some Ascii.minus))
  else if s.map Ascii.lower == utf8 "nan" then some (0.0 / 0.0)
  else none

/-- Reads a double. -/
def read (s : Bytes) : Except NumberError Float :=
  match word? s with
  | some x => .ok x
  | none =>
    match size? (Integer.unsigned s) with
    | none => .error ⟨.float, s, .malformed⟩
    | some x =>
      if x.isInf then .error ⟨.float, s, .outOfRange⟩
      else .ok (if s.head? = some Ascii.minus then -x else x)

end Stopwatch.FloatReader
