import Stopwatch.Number.Integer

/-!
Fibonacci numbers in 64 bits. The benchmark kernel computes them by double recursion with wrapping additions; up to
index 92 nothing wraps. The values are found here by walking up the sequence, which gives the same numbers.
-/

namespace Stopwatch.Fibonacci

/-- Two neighbours of the sequence, the first of them at the given index. -/
def neighbours : Nat → Nat × Nat
  | 0 => (0, 1)
  | n + 1 => let (a, b) := neighbours n; (b, a + b)

/-- The Fibonacci number at an index. -/
def number (n : Nat) : Nat := (neighbours n).1

/-- Double recursion, every sum reduced to 64 bits. -/
def naive : Nat → Int64
  | 0 => 0
  | 1 => 1
  | n + 2 => naive (n + 1) + naive n

/-- Two neighbours of the sequence in 64 bits. -/
def words : Nat → Int64 × Int64
  | 0 => (0, 1)
  | n + 1 => let (a, b) := words n; (b, a + b)

theorem words_eq_naive : ∀ n, words n = (naive n, naive (n + 1))
  | 0 => rfl
  | n + 1 => by rw [words, words_eq_naive n]; simp [naive, Int64.add_comm]

/-- What double recursion returns at a machine index; below two that is the index itself. -/
def naiveAt (n : Int64) : Int64 := if n < 2 then n else (words n.toNatClampNeg).1

theorem naiveAt_eq_naive {n : Int64} (h : ¬ n < 2) : naiveAt n = naive n.toNatClampNeg := by
  simp [naiveAt, h, words_eq_naive]

/-- How many calls double recursion makes at an index. -/
def calls (n : Nat) : Nat := 2 * number (n + 1) - 1

/-- Why an index has no value. -/
inductive Error where
  | negative (n : Int64)
  | tooLarge (n : Int64)
  deriving DecidableEq, Repr

/-- The largest index whose number fits in 64 bits with a sign. -/
def maxIndex : Int64 := 92

/-- The Fibonacci number at an index, refused where it does not exist or does not fit. -/
def value (n : Int64) : Except Error Int64 :=
  if n < 0 then .error (.negative n)
  else if maxIndex < n then .error (.tooLarge n)
  else .ok (naiveAt n)

namespace Error

/-- The kind of an error, as answers name it. -/
def kind : Error → Bytes
  | .negative _ => utf8 "INVALID_ARGUMENT"
  | .tooLarge _ => utf8 "OVERFLOW"

/-- What lies behind an error, in words. -/
def cause : Error → Bytes
  | .negative _ => utf8 "invalid argument"
  | .tooLarge _ => utf8 "overflow"

def message : Error → Bytes
  | .negative n => utf8 "fib(" ++ Integer.ofInt64 n ++ utf8 "): n must be non-negative (type: INVALID_ARGUMENT)"
  | .tooLarge n =>
    utf8 "fib(" ++ Integer.ofInt64 n ++ utf8 "): result does not fit in int64 for n > 92 (type: OVERFLOW)"

end Error

end Stopwatch.Fibonacci
