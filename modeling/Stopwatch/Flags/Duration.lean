import Stopwatch.Number.Integer

/-!
Spans of time as text: decimal numbers, each with its unit, one after the other.
-/

namespace Stopwatch.Duration

/-- Why a text is no span of time. -/
inductive Error where
  | malformed (text : Bytes)
  | missingUnit (text : Bytes)
  | unknownUnit (unit text : Bytes)
  deriving DecidableEq, Repr

/-- A text in quotes; octets beyond ASCII and control characters are written in hexadecimal. -/
def quoted (s : Bytes) : Bytes :=
  utf8 "\"" ++ (s.flatMap fun b =>
    if b < 0x20 || 0x80 ≤ b then utf8 "\\x" ++ Ascii.hexPair b
    else if b == Ascii.doubleQuote || b == Ascii.backslash then [Ascii.backslash, b]
    else [b]) ++ utf8 "\""

def Error.message : Error → Bytes
  | .malformed text => utf8 "time: invalid duration " ++ quoted text
  | .missingUnit text => utf8 "time: missing unit in duration " ++ quoted text
  | .unknownUnit unit text => utf8 "time: unknown unit " ++ quoted unit ++ utf8 " in duration " ++ quoted text

/-- The nanoseconds of a unit. -/
def unit? (s : Bytes) : Option Nat :=
  [("ns", 1), ("us", 1000), ("µs", 1000), ("μs", 1000), ("ms", 1000000), ("s", 1000000000), ("m", 60000000000),
    ("h", 3600000000000)].findSome? fun (name, n) => if utf8 name == s then some n else none

/-- The value of digits, none if it passes 2⁶³. -/
def whole? (digits : Bytes) : Option Nat :=
  let n := digits.foldl (fun n d => n * 10 + (d.toNat - 0x30)) 0
  if n ≤ Nat.pow 2 63 then some n else none

/-- Digits after a point as a number and the power of ten below it; digits that no longer fit are dropped. -/
def fraction (digits : Bytes) : Nat × Float :=
  let (n, scale, _) := digits.foldl (fun (n, scale, full) d =>
    if full || Nat.pow 2 63 / 10 < n || Nat.pow 2 63 < n * 10 + (d.toNat - 0x30) then (n, scale, true)
    else (n * 10 + (d.toNat - 0x30), scale * 10, false)) (0, (1 : Float), false)
  (n, scale)

/-- Adds up the parts of a span in nanoseconds. The first argument bounds their number. -/
def parts (text : Bytes) : Nat → Bytes → Nat → Except Error Nat
  | 0, _, total => .ok total
  | fuel + 1, s, total =>
    if s.isEmpty then .ok total
    else
      let digits := s.takeWhile Ascii.isDigit
      let rest := s.dropWhile Ascii.isDigit
      let (places, rest) := match rest with
        | Ascii.dot :: rest => (rest.takeWhile Ascii.isDigit, rest.dropWhile Ascii.isDigit)
        | rest => ([], rest)
      if digits.isEmpty && places.isEmpty then .error (.malformed text)
      else
        let name := rest.takeWhile fun b => b != Ascii.dot && !Ascii.isDigit b
        match whole? digits with
        | none => .error (.malformed text)
        | some n =>
          if name.isEmpty then .error (.missingUnit text)
          else
            match unit? name with
            | none => .error (.unknownUnit name text)
            | some unit =>
              if Nat.pow 2 63 / unit < n then .error (.malformed text)
              else
                let (f, scale) := fraction places
                let more := if f = 0 then 0 else (Float.ofNat f * (Float.ofNat unit / scale)).toUInt64.toNat
                let total := total + n * unit + more
                if Nat.pow 2 63 < n * unit + more || Nat.pow 2 63 < total then .error (.malformed text)
                else parts text fuel (rest.drop name.length) total

/-- The nanoseconds of a span of time. -/
def read (text : Bytes) : Except Error Int64 :=
  let negative := text.head? = some Ascii.minus
  let body := Integer.unsigned text
  if body == utf8 "0" then .ok 0
  else if body.isEmpty then .error (.malformed text)
  else
    match parts text (body.length + 1) body 0 with
    | .error e => .error e
    | .ok n =>
      if negative then .ok (Int64.ofInt (-n))
      else if Nat.pow 2 63 ≤ n then .error (.malformed text)
      else .ok (Int64.ofNat n)

end Stopwatch.Duration
