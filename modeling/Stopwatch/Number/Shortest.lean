import Stopwatch.Number.Double

/-!
The fewest digits that read back. Among the numerals with the least number of digits that lie closer to a double than
to any other one, the nearest is taken.
-/

namespace Stopwatch.Shortest

/-- The ends of the interval of reals that round to `m · 2ᵉ`, as fractions with the denominator `4 · den` of the value
`4 · num / (4 · den)`. -/
structure Interval where
  low : Nat
  value : Nat
  high : Nat
  den : Nat
  /-- Whether the ends themselves round to the value: they do for an even mantissa. -/
  closed : Bool

/-- The interval of a positive double; below a power of two the neighbour is only half as far away. -/
def interval (m : Nat) (e : Int) : Interval :=
  let near := m = Nat.pow 2 52 && -1074 < e
  let (unit, den) := Double.ratio 1 e
  { low := (4 * m - if near then 1 else 2) * unit
    value := 4 * m * unit
    high := (4 * m + 2) * unit
    den := 4 * den
    closed := m % 2 = 0 }

/-- The numeral `c · 10ᵘ` compared with an end of the interval: both as whole numbers. -/
def onGrid (i : Interval) (power : Int) (c bound : Nat) : Nat × Nat :=
  if 0 ≤ power then (c * Nat.pow 10 power.toNat * i.den, bound) else (c * i.den, bound * Nat.pow 10 (-power).toNat)

/-- The nearest of the value's neighbours on a decimal grid, if one lies in the interval. -/
def pick? (i : Interval) (power : Int) : Option Nat :=
  let (num, den) := Double.scaleDown (i.value, i.den) power
  let below := num / den
  let above := below + 1
  let (b, low) := onGrid i power below i.low
  let (a, high) := onGrid i power above i.high
  let belowOk := low < b || (i.closed && low = b)
  let aboveOk := a < high || (i.closed && a = high)
  if belowOk && aboveOk then some (Double.roundDiv num den)
  else if belowOk then some below
  else if aboveOk then some above
  else none

/-- Tries grids of more and more digits, the first one coarsest. -/
def search (i : Interval) (leading : Int) : Nat → Nat → Numeral
  | 0, tried => Numeral.ofScaled (Double.roundDiv i.value i.den) (leading - tried)
  | fuel + 1, tried =>
    let power := leading - tried
    match pick? i power with
    | some n => Numeral.ofScaled n power
    | none => search i leading fuel (tried + 1)

/-- The shortest numeral of the double `m · 2ᵉ`. -/
def numeral (m : Nat) (e : Int) : Numeral :=
  if m = 0 then ⟨[Ascii.zero], 0⟩
  else search (interval m e) (Double.leadingExponent (Double.ratio m e)) 17 0

end Stopwatch.Shortest
