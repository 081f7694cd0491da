import Stopwatch.Number.Integer

/-!
Points in time as YAML scalars spell them: a date, or a date with a time of day, which may have a fraction of a second
and a distance from the prime meridian.
-/

namespace Stopwatch.Yaml

/-- A point in time by the calendar and the clock of its place. -/
structure Moment where
  year : Nat
  month : Nat
  day : Nat
  hour : Nat := 0
  minute : Nat := 0
  second : Nat := 0
  /-- Billionths of a second. -/
  fraction : Nat := 0
  /-- Minutes ahead of the prime meridian. -/
  offset : Int := 0
  deriving DecidableEq, Repr

/-- The days of a month. -/
def daysIn (year month : Nat) : Nat :=
  if month = 2 then if year % 4 = 0 && (year % 100 ≠ 0 || year % 400 = 0) then 29 else 28
  else if month = 4 || month = 6 || month = 9 || month = 11 then 30
  else 31

namespace Moment

/-- The number that digits spell. -/
def numberOf (digits : Bytes) : Nat := digits.foldl (fun n b => n * 10 + (b.toNat - 0x30)) 0

/-- A number of one digit or two at the start of a text. -/
def shortNumber? : Bytes → Option (Nat × Bytes)
  | a :: b :: rest =>
    if !Ascii.isDigit a then none
    else if Ascii.isDigit b then some (numberOf [a, b], rest)
    else some (numberOf [a], b :: rest)
  | [a] => if Ascii.isDigit a then some (numberOf [a], []) else none
  | [] => none

/-- A number of one digit or two that stays below a limit. -/
def below? (limit : Nat) (s : Bytes) : Option (Nat × Bytes) := (shortNumber? s).filter fun (n, _) => n < limit

/-- The text behind an octet that must come first. -/
def after? (b : UInt8) : Bytes → Option Bytes
  | a :: rest => if a == b then some rest else none
  | [] => none

/-- The date at the start of a text: a year of four digits, month and day, with dashes between them. -/
def date? (s : Bytes) : Option (Moment × Bytes) := do
  let digits := s.takeWhile Ascii.isDigit
  if digits.length ≠ 4 then none
  else
    let (month, s) ← after? Ascii.minus (s.drop 4) >>= below? 13
    let (day, s) ← after? Ascii.minus s >>= shortNumber?
    let year := numberOf digits
    if 1 ≤ month && 1 ≤ day && day ≤ daysIn year month then some ({ year, month, day }, s) else none

/-- The fraction at the start of a text, which may be left out; what lies below a billionth is dropped. -/
def readFraction (s : Bytes) : Nat × Bytes :=
  match s with
  | point :: rest =>
    let digits := rest.takeWhile Ascii.isDigit
    if (point == Ascii.dot || point == Ascii.comma) && !digits.isEmpty then
      let kept := digits.take 9
      (numberOf kept * Nat.pow 10 (9 - kept.length), rest.drop digits.length)
    else (0, s)
  | [] => (0, [])

/-- The time of day at the start of a text, put on a date. -/
def clock? (m : Moment) (s : Bytes) : Option (Moment × Bytes) := do
  let (hour, s) ← below? 24 s
  let (minute, s) ← after? Ascii.colon s >>= below? 60
  let (second, s) ← after? Ascii.colon s >>= below? 60
  let (fraction, s) := readFraction s
  some ({ m with hour, minute, second, fraction }, s)

/-- The distance from the prime meridian, in minutes, that a whole text spells. -/
def offset? : Bytes → Option Int
  | [0x5a] => some 0
  | [sign, a, b, colon, c, d] =>
    if [a, b, c, d].all Ascii.isDigit && colon == Ascii.colon && numberOf [a, b] ≤ 24 && numberOf [c, d] ≤ 60 then
      let minutes : Int := numberOf [a, b] * 60 + numberOf [c, d]
      if sign == Ascii.plus then some minutes else if sign == Ascii.minus then some (-minutes) else none
    else none
  | _ => none

/-- The point in time that a text spells. With a T before the clock the distance must be told, after a space it must
not. -/
def read? (s : Bytes) : Option Moment := do
  let (m, s) ← date? s
  match s with
  | [] => some m
  | mark :: rest =>
    if mark == 0x54 || mark == 0x74 then
      let (m, s) ← clock? m rest
      let offset ← offset? s
      some { m with offset }
    else if mark == Ascii.space then
      let (m, s) ← clock? m (rest.dropWhile (· == Ascii.space))
      if s.isEmpty then some m else none
    else none

/-- A number in so many digits at least. -/
def padded (width n : Nat) : Bytes :=
  let digits := Integer.ofNat n
  List.replicate (width - digits.length) Ascii.zero ++ digits

/-- A distance from the prime meridian as sign, hours and minutes. -/
def offsetText (minutes : Int) : Bytes :=
  let n := minutes.natAbs
  (if minutes < 0 then utf8 "-" else utf8 "+") ++ padded 2 (n / 60) ++ padded 2 (n % 60)

/-- A point in time as messages show it. Only the prime meridian has a name. -/
def shown (m : Moment) : Bytes :=
  let digits := ((padded 9 m.fraction).reverse.dropWhile (· == Ascii.zero)).reverse
  Bytes.join (utf8 "-") [padded 4 m.year, padded 2 m.month, padded 2 m.day] ++ utf8 " "
    ++ Bytes.join (utf8 ":") [padded 2 m.hour, padded 2 m.minute, padded 2 m.second]
    ++ (if digits.isEmpty then [] else utf8 "." ++ digits)
    ++ utf8 " " ++ offsetText m.offset ++ utf8 " " ++ (if m.offset = 0 then utf8 "UTC" else offsetText m.offset)

end Moment

end Stopwatch.Yaml
