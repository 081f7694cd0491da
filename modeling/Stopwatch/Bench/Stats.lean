/-!
Statistics of sample times: the geometric mean, the samples without their ends, the range.
-/

namespace Stopwatch.Stats

/-- The samples without the first, which warms up, and the last, when there are more than two. -/
def trimEnds (samples : List Float) : List Float :=
  if 2 < samples.length then samples.tail.dropLast else samples

/-- Adds the logarithm of one value to the sum of those before; a value that is not above zero has none. -/
def addLog (acc : Float × Nat) (v : Float) : Float × Nat :=
  if v ≤ 0 then acc else (acc.1 + Float.log v, acc.2 + 1)

/-- The geometric mean of the values that have a logarithm; zero if none has. -/
def geometricMean (values : List Float) : Float :=
  let (sum, count) := values.foldl addLog (0, 0)
  if count = 0 then 0 else Float.exp (sum / Float.ofNat count)

/-- The value that is not a number. -/
def nan : Float := 0 / 0

/-- Whether the sign bit is set. -/
def signed (x : Float) : Bool := Nat.pow 2 63 ≤ x.toBits.toNat

/-- Whether a value is infinite with the given sign. -/
def isInfinite (negative : Bool) (x : Float) : Bool := x.isInf && signed x == negative

/-- The lesser of two values: -∞ before all, then no number, and -0 before 0. -/
def lesser (x y : Float) : Float :=
  if isInfinite true x || isInfinite true y then -1 / 0
  else if x.isNaN || y.isNaN then nan
  else if x == 0 && y == 0 then if signed x then x else y
  else if x < y then x else y

/-- The greater of two values: +∞ before all, then no number, and 0 before -0. -/
def greater (x y : Float) : Float :=
  if isInfinite false x || isInfinite false y then 1 / 0
  else if x.isNaN || y.isNaN then nan
  else if x == 0 && y == 0 then if signed x then y else x
  else if y < x then x else y

/-- The least and the greatest of the values; both are zero for no values. -/
def range : List Float → Float × Float
  | [] => (0, 0)
  | v :: vs => (vs.foldl lesser v, vs.foldl greater v)

end Stopwatch.Stats
