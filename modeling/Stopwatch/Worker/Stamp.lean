import Stopwatch.Number.Integer

/-!
Moments as text: year, month and day, a letter, and the time of day to the nanosecond. Days are counted in years that
begin in March, so that a leap day comes last.
-/

namespace Stopwatch.Stamp

/-- A day of the calendar. -/
structure Day where
  year : Nat
  month : Nat
  day : Nat
  deriving DecidableEq, Repr

/-- The day that comes a number of days after the first of January 1970. -/
def dayOf (days : Nat) : Day :=
  let shifted := days + 719468
  let era := shifted / 146097
  let inEra := shifted % 146097
  let yearOfEra := (inEra - inEra / 1460 + inEra / 36524 - inEra / 146096) / 365
  let inYear := inEra - (365 * yearOfEra + yearOfEra / 4 - yearOfEra / 100)
  let fromMarch := (5 * inYear + 2) / 153
  let month := if fromMarch < 10 then fromMarch + 3 else fromMarch - 9
  { year := yearOfEra + era * 400 + if month ≤ 2 then 1 else 0
    month
    day := inYear - (153 * fromMarch + 2) / 5 + 1 }

/-- A number with leading zeros. -/
def digits (width n : Nat) : Bytes := List.replicate (width - (Integer.ofNat n).length) Ascii.zero ++ Integer.ofNat n

/-- The text of a moment, in nanoseconds since the first of January 1970. -/
def ofNanoseconds (moment : Nat) : Bytes :=
  let seconds := moment / 1000000000
  let d := dayOf (seconds / 86400)
  let time := seconds % 86400
  digits 4 d.year ++ digits 2 d.month ++ digits 2 d.day ++ utf8 "T" ++ digits 2 (time / 3600)
    ++ digits 2 (time / 60 % 60) ++ digits 2 (time % 60) ++ utf8 "." ++ digits 9 (moment % 1000000000)

end Stopwatch.Stamp
