import Mathlib.Data.Nat.Fib.Basic
import Stopwatch.Kernel.Fibonacci

/-!
Fibonacci numbers in 64 bits, against the sequence itself. Double recursion with wrapping sums gives the number reduced
into the range of a word, at every index; the numbers grow, and the one at index 92 is the last that fits. Up to there no
sum wraps, so the index check lets exactly those through whose value is right.
-/

namespace Stopwatch.Fibonacci

/-! ### Double recursion, reduced -/

/-- Wrapping every sum comes to the same as reducing the number once. -/
theorem toInt_naive : ∀ n, (naive n).toInt = (Nat.fib n : Int).bmod (2 ^ 64)
  | 0 => by decide
  | 1 => by decide
  | n + 2 => by
    rw [naive, Int64.toInt_add, toInt_naive (n + 1), toInt_naive n, Int.bmod_add_bmod, Int.add_bmod_bmod,
      Nat.fib_add_two, Nat.cast_add, Int.add_comm]

/-- The first number that does not fit has index 93, and those after it are no smaller. -/
theorem fib_le_iff {n : Nat} : Nat.fib n ≤ 2 ^ 63 - 1 ↔ n ≤ 92 := by
  have hlast : Nat.fib 92 ≤ 2 ^ 63 - 1 := by decide +kernel
  have hnext : 2 ^ 63 - 1 < Nat.fib 93 := by decide +kernel
  constructor
  · intro hfits
    by_contra hlarge
    have hgrows : Nat.fib 93 ≤ Nat.fib n := Nat.fib_mono (by omega)
    omega
  · intro hn
    exact (Nat.fib_mono hn).trans hlast

theorem toInt_naive_of_le {n : Nat} (hn : n ≤ 92) : (naive n).toInt = Nat.fib n := by
  have hfits := fib_le_iff.mpr hn
  rw [toInt_naive]
  exact Int.bmod_eq_of_le (by omega) (by omega)

/-! ### Machine indices -/

theorem toInt_eq_toNatClampNeg {n : Int64} (hn : 0 ≤ n) : n.toInt = n.toNatClampNeg := by
  rw [← Int64.toNat_toInt, Int.toNat_of_nonneg (Int64.le_iff_toInt_le.mp hn)]

/-- From zero on, a machine index stands for an index of the sequence. -/
theorem naiveAt_of_nonneg {n : Int64} (hn : 0 ≤ n) : naiveAt n = naive n.toNatClampNeg := by
  by_cases hsmall : n < 2
  · have hcases : n = 0 ∨ n = 1 := by
      have hlow : 0 ≤ n.toInt := Int64.le_iff_toInt_le.mp hn
      have hhigh : n.toInt < 2 := Int64.lt_iff_toInt_lt.mp hsmall
      rcases (show n.toInt = 0 ∨ n.toInt = 1 by omega) with hzero | hone
      · exact Or.inl (Int64.toInt_inj.mp hzero)
      · exact Or.inr (Int64.toInt_inj.mp hone)
    rcases hcases with rfl | rfl <;> decide
  · exact naiveAt_eq_naive hsmall

/-- The places that double recursion visits from a machine index, as places of the sequence. -/
theorem exists_visits {n : Int64} (hn : 2 ≤ n) :
    ∃ m, n.toNatClampNeg = m + 2 ∧ naiveAt n = naive (m + 2) ∧ naiveAt (n - 1) = naive (m + 1) ∧
      naiveAt (n - 2) = naive m := by
  have hnonneg : 0 ≤ n := Int64.le_trans (by decide) hn
  have hone : 1 ≤ n := Int64.le_trans (by decide) hn
  have hlow : 2 ≤ n.toInt := Int64.le_iff_toInt_le.mp hn
  rw [toInt_eq_toNatClampNeg hnonneg] at hlow
  obtain ⟨m, hm⟩ : ∃ m, n.toNatClampNeg = m + 2 := ⟨n.toNatClampNeg - 2, by omega⟩
  refine ⟨m, hm, ?_, ?_, ?_⟩
  · rw [naiveAt_of_nonneg hnonneg, hm]
  · rw [naiveAt_of_nonneg (Int64.sub_nonneg_of_le (by decide) hone), Int64.toNatClampNeg_sub_of_le (by decide) hone, hm]
    rfl
  · rw [naiveAt_of_nonneg (Int64.sub_nonneg_of_le (by decide) hn), Int64.toNatClampNeg_sub_of_le (by decide) hn, hm]
    rfl

/-- Walking up the sequence obeys the equation of double recursion, on machine indices. -/
theorem naiveAt_eq (n : Int64) : naiveAt n = if n < 2 then n else naiveAt (n - 1) + naiveAt (n - 2) := by
  by_cases hsmall : n < 2
  · rw [naiveAt, if_pos hsmall, if_pos hsmall]
  · obtain ⟨m, -, hself, hone, htwo⟩ := exists_visits (Int64.not_lt.mp hsmall)
    rw [if_neg hsmall, hself, hone, htwo, naive]

/-! ### The checked value -/

theorem le_maxIndex_iff {n : Int64} (hn : 0 ≤ n) : n ≤ maxIndex ↔ n.toNatClampNeg ≤ 92 := by
  rw [Int64.le_iff_toInt_le, toInt_eq_toNatClampNeg hn]
  exact Int.ofNat_le

theorem value_eq_ok_iff {n v : Int64} : value n = .ok v ↔ 0 ≤ n ∧ n.toNatClampNeg ≤ 92 ∧ v = naive n.toNatClampNeg := by
  rw [value]
  by_cases hneg : n < 0
  · simp [hneg, Int64.not_le.mpr hneg]
  · have hn : 0 ≤ n := Int64.not_lt.mp hneg
    rw [if_neg hneg, ← le_maxIndex_iff hn, naiveAt_of_nonneg hn]
    by_cases hlarge : maxIndex < n
    · simp [hlarge, Int64.not_le.mpr hlarge]
    · simp [hlarge, hn, Int64.not_lt.mp hlarge, eq_comm]

/-- A sum that double recursion forms at an index that is let through does not wrap. -/
theorem toInt_sum_of_le {k : Int64} (hk : 2 ≤ k) (hmax : k ≤ maxIndex) :
    (naiveAt (k - 1) + naiveAt (k - 2)).toInt = (naiveAt (k - 1)).toInt + (naiveAt (k - 2)).toInt := by
  rw [le_maxIndex_iff (Int64.le_trans (by decide) hk)] at hmax
  obtain ⟨m, hm, -, hone, htwo⟩ := exists_visits hk
  rw [hone, htwo, ← naive, toInt_naive_of_le (by omega), toInt_naive_of_le (by omega), toInt_naive_of_le (by omega),
    Nat.fib_add_two, Nat.cast_add, Int.add_comm]

/-- Double recursion on machine words gives the Fibonacci number at every index, reduced into the range of a word. The
checked value exists exactly where the number itself is in that range; it is that number then, and no sum on the way to
it wraps. Every other index is refused, as negative or as too large. -/
theorem value_tight :
    (∀ n : Int64, naiveAt n = if n < 2 then n else naiveAt (n - 1) + naiveAt (n - 2)) ∧
    (∀ n : Int64, 0 ≤ n → (naiveAt n).toInt = (Nat.fib n.toNatClampNeg : Int).bmod (2 ^ 64)) ∧
    (∀ n : Int64, (∃ v, value n = .ok v) ↔ 0 ≤ n ∧ Nat.fib n.toNatClampNeg ≤ 2 ^ 63 - 1) ∧
    (∀ n v : Int64, value n = .ok v → v = naiveAt n ∧ v.toInt = Nat.fib n.toNatClampNeg ∧
      ∀ k : Int64, 2 ≤ k → k ≤ n →
        (naiveAt (k - 1) + naiveAt (k - 2)).toInt = (naiveAt (k - 1)).toInt + (naiveAt (k - 2)).toInt) ∧
    (∀ n : Int64, n < 0 → value n = .error (.negative n)) ∧
    ∀ n : Int64, 92 < n → value n = .error (.tooLarge n) := by
  refine ⟨naiveAt_eq, fun n hn => ?_, fun n => ?_, fun n v hv => ?_, fun n hn => ?_, fun n hn => ?_⟩
  · rw [naiveAt_of_nonneg hn, toInt_naive]
  · simp only [value_eq_ok_iff, fib_le_iff, exists_and_left, exists_eq, and_true]
  · obtain ⟨hn, hmax, rfl⟩ := value_eq_ok_iff.mp hv
    refine ⟨(naiveAt_of_nonneg hn).symm, toInt_naive_of_le hmax, fun k hk hkn => ?_⟩
    exact toInt_sum_of_le hk (Int64.le_trans hkn ((le_maxIndex_iff hn).mpr hmax))
  · rw [value, if_pos hn]
  · have hnonneg : 0 ≤ n := Int64.le_trans (by decide) (Int64.le_of_lt hn)
    rw [value, if_neg (Int64.not_lt.mpr hnonneg), if_pos (show maxIndex < n from hn)]

/-- The last index that is let through, and the first that is not: there double recursion would wrap. -/
theorem value_tight_last :
    (∃ v, value 92 = .ok v ∧ v.toInt = 7540113804746346429) ∧ value 93 = .error (.tooLarge 93) ∧
      (naiveAt 93).toInt = 12200160415121876738 - 2 ^ 64 := by
  obtain ⟨-, hreduced, hfits, hexact, -, hlarge⟩ := value_tight
  refine ⟨?_, hlarge 93 (by decide), ?_⟩
  · obtain ⟨v, hv⟩ := (hfits 92).mpr ⟨by decide, by decide +kernel⟩
    exact ⟨v, hv, (hexact 92 v hv).2.1.trans (by decide +kernel)⟩
  · exact (hreduced 93 (by decide)).trans (by decide +kernel)

end Stopwatch.Fibonacci
