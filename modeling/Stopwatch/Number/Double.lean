import Stopwatch.Number.Integer

/-!
Double-precision numbers as exact values. A finite one is ± m · 2ᵉ with whole m and e; rounding to a decimal grid is
exact arithmetic on that value, a tie going to the even neighbour.
-/

namespace Stopwatch

/-- A double taken apart. -/
inductive Double where
  | nan
  | infinite (negative : Bool)
  | finite (negative : Bool) (mantissa : Nat) (exponent : Int)
  deriving DecidableEq, Repr

namespace Double

/-- The parts of a number, read from its bits. -/
def ofFloat (x : Float) : Double :=
  let bits := x.toBits.toNat
  let negative := decide (Nat.pow 2 63 ≤ bits)
  let biased : Nat := bits / Nat.pow 2 52 % Nat.pow 2 11
  let fraction : Nat := bits % Nat.pow 2 52
  if biased = 2047 then if fraction = 0 then .infinite negative else .nan
  else if biased = 0 then .finite negative fraction (-1074)
  else .finite negative (Nat.pow 2 52 + fraction) ((biased : Int) - 1075)

/-- The quotient rounded to the nearest whole number, a tie to the even one. -/
def roundDiv (num den : Nat) : Nat :=
  let q := num / den
  let twice := 2 * (num % den)
  if twice < den then q
  else if den < twice then q + 1
  else if q % 2 = 0 then q else q + 1

/-- `m · 2ᵉ` as a fraction. -/
def ratio (m : Nat) (e : Int) : Nat × Nat :=
  if 0 ≤ e then (m * Nat.pow 2 e.toNat, 1) else (m, Nat.pow 2 (-e).toNat)

/-- The fraction divided by a power of ten. -/
def scaleDown (r : Nat × Nat) (power : Int) : Nat × Nat :=
  if 0 ≤ power then (r.1, r.2 * Nat.pow 10 power.toNat) else (r.1 * Nat.pow 10 (-power).toNat, r.2)

/-- The least `k` from `k` on with `1 ≤ r · 10ᵏ`, the first argument bounding the search. -/
def leadingZeros : Nat → Nat → Nat × Nat → Nat
  | 0, k, _ => k
  | fuel + 1, k, (num, den) => if den ≤ num then k else leadingZeros fuel (k + 1) (num * 10, den)

/-- The exponent of the first digit of a positive fraction: the `x` with `10ˣ ≤ r < 10ˣ⁺¹`. -/
def leadingExponent (r : Nat × Nat) : Int :=
  if r.2 ≤ r.1 then (Integer.ofNat (r.1 / r.2)).length - 1 else -(leadingZeros 400 0 r)

end Double

/-- A decimal numeral d₁.d₂…dₙ · 10ˣ, given by its digits and the exponent of the first one. -/
structure Numeral where
  digits : Bytes
  exponent : Int
  deriving DecidableEq, Repr

namespace Numeral

/-- The numeral of `n · 10ᵘ`, without zeros at the end. -/
def ofScaled (n : Nat) (unit : Int) : Numeral :=
  let all := Integer.ofNat n
  let kept := (all.reverse.dropWhile (· == Ascii.zero)).reverse
  ⟨if kept.isEmpty then [Ascii.zero] else kept, unit + (all.length - 1)⟩

end Numeral

end Stopwatch
