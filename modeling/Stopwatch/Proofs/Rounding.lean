import Mathlib

/-!
Rounding to doubles. A mantissa with its accuracy tells where an exact rational lies between two neighbours; shifting
keeps what it tells, and rounding then finds the double in whose interval the rational lies, across the ends of binades
and down to the subnormal numbers.
-/

namespace Stopwatch.Rounding

open Float.Model Float.Model.UnpackedFloat

/-! ### What a mantissa tells -/

/-- The place of an exact number between a mantissa and the next one. -/
def Locates (y : ℚ) (mantissa : Nat) : Accuracy → Prop
  | .exact => y = mantissa
  | .inexact .lt => mantissa < y ∧ y < mantissa + 1 / 2
  | .inexact .eq => y = mantissa + 1 / 2
  | .inexact .gt => mantissa + 1 / 2 < y ∧ y < mantissa + 1

theorem Locates.floor {y : ℚ} {mantissa : Nat} {accuracy : Accuracy} (h : Locates y mantissa accuracy) :
    (mantissa : ℚ) ≤ y ∧ y < mantissa + 1 := by
  rcases accuracy with _ | (_ | _ | _) <;> simp only [Locates] at h <;> constructor <;> linarith

/-- Dropping the last bit halves the number. -/
theorem Locates.shiftRightOne {y : ℚ} {em : ExtendedMantissa} (h : Locates y em.mantissa em.accuracy) :
    Locates (y / 2) em.shiftRightOne.mantissa em.shiftRightOne.accuracy := by
  obtain ⟨m, round, sticky⟩ := em
  -- Of the bits behind the mantissa it only matters whether one is set.
  have hexact : (round || sticky) = false → y = m := by
    intro hbits
    obtain ⟨rfl, rfl⟩ := Bool.or_eq_false_iff.mp hbits
    exact h
  have hbetween : (round || sticky) = true → (m : ℚ) < y ∧ y < m + 1 := by
    cases round <;> cases sticky <;> simp only [ExtendedMantissa.accuracy, Locates] at h
    · nofun
    all_goals exact fun _ => ⟨by linarith, by linarith⟩
  rcases Nat.even_or_odd' m with ⟨k, rfl | rfl⟩
  · have hhalf : 2 * k / 2 = k := by omega
    cases hbits : round || sticky with
    | false =>
      simp only [ExtendedMantissa.shiftRightOne, hbits, hhalf, Nat.mul_mod_right, ExtendedMantissa.accuracy]
      have := hexact hbits
      push_cast at this
      simp only [Locates, bne_self_eq_false]
      linarith
    | true =>
      simp only [ExtendedMantissa.shiftRightOne, hbits, hhalf, Nat.mul_mod_right, ExtendedMantissa.accuracy]
      have := hbetween hbits
      push_cast at this
      simp only [Locates, bne_self_eq_false]
      exact ⟨by linarith, by linarith⟩
  · have hhalf : (2 * k + 1) / 2 = k := by omega
    have hodd : ((2 * k + 1) % 2 != 0) = true := by simp
    cases hbits : round || sticky with
    | false =>
      simp only [ExtendedMantissa.shiftRightOne, hbits, hhalf, hodd, ExtendedMantissa.accuracy]
      have := hexact hbits
      push_cast at this
      simp only [Locates]
      linarith
    | true =>
      simp only [ExtendedMantissa.shiftRightOne, hbits, hhalf, hodd, ExtendedMantissa.accuracy]
      have := hbetween hbits
      push_cast at this
      simp only [Locates]
      exact ⟨by linarith, by linarith⟩

theorem Locates.shiftRight {y : ℚ} {em : ExtendedMantissa} (h : Locates y em.mantissa em.accuracy) (k : Nat) :
    Locates (y / 2 ^ k) (em >>> k).mantissa (em >>> k).accuracy := by
  induction k with
  | zero => simpa [HShiftRight.hShiftRight, Nat.repeat] using h
  | succ k ih =>
    have hstep : em >>> (k + 1) = (em >>> k).shiftRightOne := rfl
    rw [hstep, pow_succ, ← div_div]
    exact ih.shiftRightOne

theorem locates_ofMantissaAndAccuracy {y : ℚ} {mantissa : Nat} {accuracy : Accuracy} (h : Locates y mantissa accuracy) :
    Locates y (ExtendedMantissa.ofMantissaAndAccuracy mantissa accuracy).mantissa
      (ExtendedMantissa.ofMantissaAndAccuracy mantissa accuracy).accuracy := by
  rcases accuracy with _ | (_ | _ | _) <;> exact h

/-- A quotient of whole numbers with its remainder. -/
theorem locates_div (num : Nat) {den : Nat} (hden : 0 < den) :
    Locates ((num : ℚ) / den) (num / den) (accuracyOfFraction (num % den) den) := by
  have hdivmod : num = den * (num / den) + num % den := (Nat.div_add_mod num den).symm
  have hlt : num % den < den := Nat.mod_lt num hden
  generalize num / den = q at hdivmod ⊢
  generalize num % den = r at hdivmod hlt ⊢
  have hpos : (0 : ℚ) < den := by exact_mod_cast hden
  have hy : (num : ℚ) / den = q + r / den := by
    rw [hdivmod]
    push_cast
    field_simp
  have hr : (r : ℚ) / den < 1 := by
    rw [div_lt_one hpos]
    exact_mod_cast hlt
  rw [hy, accuracyOfFraction]
  split
  · next hzero => simp [Locates, hzero]
  · next hne =>
    have hrpos : (0 : ℚ) < r / den := by
      have : (0 : ℚ) < r := by exact_mod_cast Nat.pos_of_ne_zero hne
      positivity
    cases hcmp : compare (2 * r) den with
    | lt =>
      have hhalf : (r : ℚ) / den < 1 / 2 := by
        have : (2 * r : ℚ) < den := by exact_mod_cast Nat.compare_eq_lt.mp hcmp
        rw [div_lt_iff₀ hpos]
        linarith
      exact ⟨by linarith, by linarith⟩
    | eq =>
      have hhalf : (r : ℚ) / den = 1 / 2 := by
        have : (2 * r : ℚ) = den := by exact_mod_cast Nat.compare_eq_eq.mp hcmp
        rw [div_eq_iff hpos.ne']
        linarith
      simp only [Locates]
      linarith
    | gt =>
      have hhalf : 1 / 2 < (r : ℚ) / den := by
        have : (den : ℚ) < 2 * r := by exact_mod_cast Nat.compare_eq_gt.mp hcmp
        rw [lt_div_iff₀ hpos]
        linarith
      exact ⟨by linarith, by linarith⟩

/-! ### The nearest whole number -/

/-- The whole number nearest to an exact one, the even one of two. -/
structure RoundsTo (y : ℚ) (n : Nat) : Prop where
  low : (n : ℚ) - 1 / 2 ≤ y
  high : y ≤ n + 1 / 2
  strict : n % 2 = 1 → (n : ℚ) - 1 / 2 < y ∧ y < n + 1 / 2

theorem Locates.roundedMantissa {y : ℚ} {em : ExtendedMantissa} (h : Locates y em.mantissa em.accuracy) {n : Nat}
    (hn : RoundsTo y n) : em.roundedMantissa = n := by
  -- Both are whole numbers within a distance of one half, but for the two sides of a tie.
  obtain ⟨hlow, hhigh, hstrict⟩ := hn
  rw [ExtendedMantissa.roundedMantissa]
  generalize em.mantissa = m at h ⊢
  generalize em.accuracy = accuracy at h ⊢
  rcases accuracy with _ | (_ | _ | _) <;> simp only [Locates] at h <;> simp only [Accuracy.roundToNearestEven]
  · have h1 : (m : ℚ) < n + 1 := by linarith
    have h2 : (n : ℚ) < m + 1 := by linarith
    norm_cast at h1 h2
    omega
  · have h1 : (m : ℚ) < n + 1 := by linarith
    have h2 : (n : ℚ) < m + 1 := by linarith
    norm_cast at h1 h2
    omega
  · have h1 : (m : ℚ) < n + 1 := by linarith
    have h2 : (n : ℚ) < m + 2 := by linarith
    norm_cast at h1 h2
    have heven : n % 2 = 0 := by
      by_contra hodd
      obtain ⟨hlow', hhigh'⟩ := hstrict (by omega)
      rw [h] at hlow' hhigh'
      have h3 : (n : ℚ) < m + 1 := by linarith
      have h4 : (m : ℚ) < n := by linarith
      norm_cast at h3 h4
      omega
    omega
  · have h1 : (m : ℚ) < n := by linarith
    have h2 : (n : ℚ) < m + 2 := by linarith
    norm_cast at h1 h2
    omega

/-! ### Binades -/

/-- A rational between a power of two and the next one. -/
def InBinade (x : ℚ) (top : Int) : Prop := 2 ^ (top - 1) ≤ x ∧ x < 2 ^ top

theorem exists_inBinade {x : ℚ} (h : 0 < x) : ∃ top, InBinade x top := by
  obtain ⟨n, hlow, hhigh⟩ := exists_mem_Ico_zpow h (by norm_num : (1 : ℚ) < 2)
  exact ⟨n + 1, by simpa using hlow, hhigh⟩

theorem lt_of_zpow_lt {a b : Int} (h : (2 : ℚ) ^ a < 2 ^ b) : a < b :=
  (zpow_lt_zpow_iff_right₀ (by norm_num)).mp h

/-- The exponent that a double in a binade has. -/
def target (top : Int) : Int := max (top - 53) (-1074)

/-- A mantissa that is fine enough leads to the exponent of its binade, also if it is zero. -/
theorem targetExponent_eq {x : ℚ} {mantissa : Nat} {exponent top : Int} {accuracy : Accuracy}
    (hloc : Locates (x / 2 ^ exponent) mantissa accuracy) (hx : InBinade x top) (hfine : exponent ≤ target top) :
    Format.binary64.targetExponent (totalExponent mantissa exponent) = target top := by
  have hpos : (0 : ℚ) < 2 ^ exponent := by positivity
  obtain ⟨hlow, hhigh⟩ := hloc.floor
  rw [le_div_iff₀ hpos] at hlow
  rw [div_lt_iff₀ hpos] at hhigh
  have htotal : Format.binary64.targetExponent (totalExponent mantissa exponent)
      = max (mantissa.log2 + 1 + exponent - 53) (-1074) := rfl
  rw [htotal, target] at *
  rcases Nat.eq_zero_or_pos mantissa with rfl | hm
  · have htop : top - 1 < exponent := by
      apply lt_of_zpow_lt
      refine lt_of_le_of_lt hx.1 ?_
      simpa using hhigh
    rw [Nat.log2_zero]
    omega
  · have hself : (2 : ℚ) ^ (mantissa.log2 : Int) ≤ mantissa := by
      rw [zpow_natCast]
      exact_mod_cast Nat.log2_self_le hm.ne'
    have hnext : (mantissa : ℚ) + 1 ≤ 2 ^ ((mantissa.log2 : Int) + 1) := by
      have : mantissa + 1 ≤ 2 ^ (mantissa.log2 + 1) := Nat.lt_log2_self
      exact_mod_cast this
    have h1 : (mantissa.log2 : Int) + exponent < top := by
      apply lt_of_zpow_lt
      rw [zpow_add₀ (by norm_num)]
      calc (2 : ℚ) ^ (mantissa.log2 : Int) * 2 ^ exponent ≤ mantissa * 2 ^ exponent := by gcongr
        _ ≤ x := hlow
        _ < 2 ^ top := hx.2
    have h2 : top - 1 < (mantissa.log2 : Int) + 1 + exponent := by
      apply lt_of_zpow_lt
      rw [zpow_add₀ (by norm_num)]
      calc (2 : ℚ) ^ (top - 1) ≤ x := hx.1
        _ < (mantissa + 1) * 2 ^ exponent := hhigh
        _ ≤ 2 ^ ((mantissa.log2 : Int) + 1) * 2 ^ exponent := by gcongr
    omega

/-- The first shift brings the mantissa to the exponent of its binade, and rounding there finds the nearest whole number
of units. -/
theorem roundedMantissa_shift {x : ℚ} {mantissa : Nat} {exponent top : Int} {accuracy : Accuracy}
    (hloc : Locates (x / 2 ^ exponent) mantissa accuracy) (hx : InBinade x top) (hfine : exponent ≤ target top)
    {n : Nat} (hn : RoundsTo (x / 2 ^ target top) n) :
    ∃ em, shiftToTargetExponent Format.binary64 mantissa exponent accuracy = (em, target top) ∧ em.roundedMantissa = n := by
  rw [shiftToTargetExponent, targetExponent_eq hloc hx hfine, shiftToExponent]
  obtain ⟨k, hk⟩ := Int.eq_ofNat_of_zero_le (Int.sub_nonneg_of_le hfine)
  have hexponent : exponent + (k : Int) = target top := by omega
  have hshift := (locates_ofMantissaAndAccuracy hloc).shiftRight k
  have hscale : x / 2 ^ exponent / 2 ^ k = x / 2 ^ target top := by
    rw [← hexponent, zpow_add₀ (by norm_num), zpow_natCast, div_div]
  rw [hk, Int.toNat_natCast, hexponent]
  rw [hscale] at hshift
  exact ⟨_, rfl, hshift.roundedMantissa hn⟩

/-! ### Doubles -/

/-- The mantissa and the exponent of a positive double, as its bits give them. -/
structure IsCanonical (m : Nat) (e : Int) : Prop where
  pos : 0 < m
  lt : m < 2 ^ 53
  low : -1074 ≤ e
  high : e ≤ 971
  normal : m < 2 ^ 52 → e = -1074

/-- How far the interval of a double reaches down, in units of its last place: below a power of two the neighbour is only
half as far away. -/
def reach (m : Nat) (e : Int) : ℚ := if m = 2 ^ 52 ∧ -1074 < e then 1 / 4 else 1 / 2

/-- The rationals that round to a double. -/
structure Rounds (x : ℚ) (m : Nat) (e : Int) : Prop where
  low : (m - reach m e) * 2 ^ e ≤ x
  high : x ≤ (m + 1 / 2) * 2 ^ e
  strict : m % 2 = 1 → (m - reach m e) * 2 ^ e < x ∧ x < (m + 1 / 2) * 2 ^ e

/-- A mantissa of a double stays as it is in the second shift. -/
theorem shift_canonical {m : Nat} {e : Int} (h : IsCanonical m e) :
    shiftToTargetExponent Format.binary64 m e .exact = (⟨m, false, false⟩, e) := by
  have htarget : Format.binary64.targetExponent (totalExponent m e) = max (m.log2 + 1 + e - 53) (-1074) := rfl
  have hlog : m.log2 < 53 := (Nat.log2_lt h.pos.ne').mpr h.lt
  have hsmall : e ≠ -1074 → 52 ≤ m.log2 := by
    intro he
    refine (Nat.le_log2 h.pos.ne').mpr (Nat.le_of_not_lt fun hm => he (h.normal hm))
  have hlow := h.low
  have hzero : (max ((m.log2 : Int) + 1 + e - 53) (-1074) - e).toNat = 0 := by omega
  rw [shiftToTargetExponent, htarget, shiftToExponent, hzero]
  simp [HShiftRight.hShiftRight, Nat.repeat, ExtendedMantissa.ofMantissaAndAccuracy]

/-- A mantissa that rounding has carried over the end of its binade loses its last bit. -/
theorem shift_carried {e : Int} (h : -1074 ≤ e) :
    shiftToTargetExponent Format.binary64 (2 ^ 53) e .exact = (⟨2 ^ 52, false, false⟩, e + 1) := by
  have htarget : Format.binary64.targetExponent (totalExponent (2 ^ 53) e) = e + 1 := by
    have hrfl : Format.binary64.targetExponent (totalExponent (2 ^ 53) e)
        = max ((2 ^ 53 : Nat).log2 + 1 + e - 53) (-1074) := rfl
    rw [hrfl, Nat.log2_two_pow]
    omega
  have hone : (e + 1 - e).toNat = 1 := by omega
  rw [shiftToTargetExponent, htarget, shiftToExponent, hone]
  simp [HShiftRight.hShiftRight, Nat.repeat, ExtendedMantissa.ofMantissaAndAccuracy, ExtendedMantissa.shiftRightOne]

theorem reach_le (m : Nat) (e : Int) : reach m e ≤ 1 / 2 := by
  unfold reach
  split <;> norm_num

/-- A double rounds to itself. -/
theorem rounds_self (m : Nat) (e : Int) : Rounds (m * 2 ^ e) m e := by
  have hpos : (0 : ℚ) < 2 ^ e := by positivity
  have hreach : 0 < reach m e := by
    unfold reach
    split <;> norm_num
  have hlow : ((m : ℚ) - reach m e) * 2 ^ e < m * 2 ^ e := by
    gcongr
    linarith
  have hhigh : (m : ℚ) * 2 ^ e < (m + 1 / 2) * 2 ^ e := by
    gcongr
    linarith
  exact ⟨hlow.le, hhigh.le, fun _ => ⟨hlow, hhigh⟩⟩

/-- The intervals of doubles begin above half of the smallest one. -/
theorem Rounds.lower {x : ℚ} {m : Nat} {e : Int} (hc : IsCanonical m e) (h : Rounds x m e) :
    2 ^ (-1075 : Int) ≤ x := by
  have hm : (1 : ℚ) ≤ m := by exact_mod_cast hc.pos
  have hreach := reach_le m e
  have hhalf : (2 : ℚ) ^ (-1075 : Int) = 1 / 2 * 2 ^ (-1074 : Int) := by
    rw [show (-1075 : Int) = -1 + -1074 from rfl, zpow_add₀ (by norm_num)]
    norm_num
  calc (2 : ℚ) ^ (-1075 : Int) = 1 / 2 * 2 ^ (-1074 : Int) := hhalf
    _ ≤ (m - reach m e) * 2 ^ e := by
      gcongr
      · linarith
      · linarith
      · norm_num
      · exact hc.low
    _ ≤ x := h.low

theorem Rounds.ne_zero {n m : Nat} {y : ℚ} {e : Int} (hc : IsCanonical m e) (h : Rounds (n * y) m e) : n ≠ 0 := by
  rintro rfl
  have hlower := h.lower hc
  have hpos : (0 : ℚ) < 2 ^ (-1075 : Int) := by positivity
  rw [Nat.cast_zero, zero_mul] at hlower
  exact absurd hlower (not_le.mpr hpos)

/-- The interval of a double ends before the next binade begins. -/
theorem Rounds.lt_binade {x : ℚ} {m : Nat} {e : Int} (hc : IsCanonical m e) (h : Rounds x m e) :
    x < 2 ^ (53 + e) := by
  have hm : (m : ℚ) + 1 ≤ 2 ^ 53 := by exact_mod_cast hc.lt
  rw [zpow_add₀ (by norm_num)]
  calc x ≤ (m + 1 / 2) * 2 ^ e := h.high
    _ < 2 ^ (53 : Int) * 2 ^ e := by
      gcongr
      rw [zpow_ofNat]
      linarith

/-- The intervals of doubles end where the exponents do. -/
theorem Rounds.upper {x : ℚ} {m : Nat} {e : Int} (hc : IsCanonical m e) (h : Rounds x m e) :
    x < 2 ^ (1024 : Int) := by
  have hhigh := hc.high
  exact lt_of_lt_of_le (h.lt_binade hc) (zpow_le_zpow_right₀ (by norm_num) (by omega))

/-- In units of the last place of its double a rational rounds to the mantissa. -/
theorem Rounds.roundsTo {x : ℚ} {m : Nat} {e : Int} (h : Rounds x m e) : RoundsTo (x / 2 ^ e) m := by
  have hpos : (0 : ℚ) < 2 ^ e := by positivity
  have hreach := reach_le m e
  have hlow : (m : ℚ) - 1 / 2 ≤ x / 2 ^ e := by
    rw [le_div_iff₀ hpos]
    refine le_trans ?_ h.low
    gcongr
  refine ⟨hlow, ?_, ?_⟩
  · rw [div_le_iff₀ hpos]
    exact h.high
  · intro hodd
    obtain ⟨hl, hh⟩ := h.strict hodd
    rw [lt_div_iff₀ hpos, div_lt_iff₀ hpos]
    refine ⟨lt_of_le_of_lt ?_ hl, hh⟩
    gcongr

/-- Just below a power of two the units are half as large, and the rational rounds up to the end of its binade. -/
theorem Rounds.target_below {x : ℚ} {e top : Int} (he : -1074 < e) (h : Rounds x (2 ^ 52) e) (hlt : x < 2 ^ 52 * 2 ^ e)
    (hx : InBinade x top) : target top = e - 1 ∧ RoundsTo (x / 2 ^ (e - 1)) (2 ^ 53) := by
  have hpos : (0 : ℚ) < 2 ^ e := by positivity
  have hlow := h.low
  rw [reach, if_pos ⟨rfl, he⟩] at hlow
  push_cast at hlow
  have hlower : 51 + e < top := by
    apply lt_of_zpow_lt
    rw [zpow_add₀ (by norm_num)]
    calc (2 : ℚ) ^ (51 : Int) * 2 ^ e < (2 ^ 52 - 1 / 4) * 2 ^ e := by
          gcongr
          norm_num
      _ ≤ x := hlow
      _ < 2 ^ top := hx.2
  have hupper : top - 1 < 52 + e := by
    apply lt_of_zpow_lt
    rw [zpow_add₀ (by norm_num)]
    exact lt_of_le_of_lt hx.1 hlt
  have hunits : x / 2 ^ (e - 1) = 2 * (x / 2 ^ e) := by
    rw [zpow_sub₀ (by norm_num), zpow_one]
    field_simp
  rw [← le_div_iff₀ hpos] at hlow
  rw [← div_lt_iff₀ hpos] at hlt
  refine ⟨by rw [target]; omega, ?_, ?_, by norm_num⟩
  · rw [hunits]
    push_cast
    linarith
  · rw [hunits]
    push_cast
    linarith

/-- Elsewhere the rational lies in the binade of its double. -/
theorem Rounds.binade_le {x : ℚ} {m : Nat} {e : Int} (hc : IsCanonical m e) (h : Rounds x m e) (he : e ≠ -1074)
    (hfar : m = 2 ^ 52 → 2 ^ 52 * 2 ^ e ≤ x) : (2 : ℚ) ^ 52 * 2 ^ e ≤ x := by
  rcases eq_or_ne m (2 ^ 52) with hm | hm
  · exact hfar hm
  · have hbig : 2 ^ 52 + 1 ≤ m := by
      have : ¬ m < 2 ^ 52 := fun hlt => he (hc.normal hlt)
      omega
    have hbigQ : (2 : ℚ) ^ 52 + 1 ≤ m := by exact_mod_cast hbig
    have hreach := reach_le m e
    calc (2 : ℚ) ^ 52 * 2 ^ e ≤ (m - reach m e) * 2 ^ e := by
          gcongr
          linarith
      _ ≤ x := h.low

/-- Where the interval of a double lies: in its own binade, or at the end of the one below, where the rational rounds to
the power of two. -/
theorem Rounds.target_eq {x : ℚ} {m : Nat} {e top : Int} (hc : IsCanonical m e) (h : Rounds x m e)
    (hx : InBinade x top) :
    (target top = e ∧ RoundsTo (x / 2 ^ e) m) ∨
      (target top = e - 1 ∧ m = 2 ^ 52 ∧ RoundsTo (x / 2 ^ (e - 1)) (2 ^ 53)) := by
  have hlow := hc.low
  have htop : top - 1 < 53 + e := lt_of_zpow_lt (lt_of_le_of_lt hx.1 (h.lt_binade hc))
  by_cases hnear : (m = 2 ^ 52 ∧ -1074 < e) ∧ x < 2 ^ 52 * 2 ^ e
  · obtain ⟨⟨rfl, he⟩, hlt⟩ := hnear
    obtain ⟨htarget, hround⟩ := h.target_below he hlt hx
    exact .inr ⟨htarget, rfl, hround⟩
  · refine .inl ⟨?_, h.roundsTo⟩
    rcases eq_or_ne e (-1074) with rfl | he
    · rw [target]
      omega
    · have hbinade := h.binade_le hc he fun hm => not_lt.mp fun hlt => hnear ⟨⟨hm, by omega⟩, hlt⟩
      have hlower : 52 + e < top := by
        apply lt_of_zpow_lt
        rw [zpow_add₀ (by norm_num), zpow_ofNat]
        exact lt_of_le_of_lt hbinade hx.2
      rw [target]
      omega

/-- Rounding finds the double in whose interval a rational lies. -/
theorem roundWithAccuracy_eq {x : ℚ} {m : Nat} {e : Int} (hc : IsCanonical m e) (h : Rounds x m e) {mantissa : Nat}
    {exponent top : Int} {accuracy : Accuracy} (hloc : Locates (x / 2 ^ exponent) mantissa accuracy)
    (hx : InBinade x top) (hfine : exponent ≤ target top) (sign : Sign) :
    roundWithAccuracy Format.binary64 sign mantissa exponent accuracy = .finite sign m e hc.pos := by
  rw [roundWithAccuracy]
  rcases h.target_eq hc hx with ⟨htarget, hround⟩ | ⟨htarget, rfl, hround⟩
  · rw [← htarget] at hround
    obtain ⟨em, hshift, hem⟩ := roundedMantissa_shift hloc hx hfine hround
    rw [htarget] at hshift
    simp only [hshift, hem, shift_canonical hc, hc.pos.ne', dif_neg, not_false_eq_true]
  · rw [← htarget] at hround
    obtain ⟨em, hshift, hem⟩ := roundedMantissa_shift hloc hx hfine hround
    rw [htarget] at hshift
    have hlow := hc.low
    have hlow' : -1074 ≤ e - 1 := by
      rw [← htarget, target]
      omega
    simp only [hshift, hem, shift_carried hlow']
    simp

/-! ### Products and quotients -/

section
variable {m₁ m₂ m : Nat} {e₁ e₂ e : Int} (h₁ : 0 < m₁) (h₂ : 0 < m₂) (hc : IsCanonical m e)

include hc in
/-- A product that is given exactly, in units that are fine enough for its binade. -/
theorem mul_eq {top : Int} (h : Rounds (m₁ * 2 ^ e₁ * (m₂ * 2 ^ e₂)) m e)
    (hx : InBinade (m₁ * 2 ^ e₁ * (m₂ * 2 ^ e₂)) top) (hfine : e₁ + e₂ ≤ target top) :
    mul Format.binary64 (.finite .positive m₁ e₁ h₁) (.finite .positive m₂ e₂ h₂) = .finite .positive m e hc.pos := by
  have hloc : Locates ((m₁ * 2 ^ e₁ * (m₂ * 2 ^ e₂) : ℚ) / 2 ^ (e₁ + e₂)) (m₁ * m₂) .exact := by
    rw [Locates, zpow_add₀ (by norm_num)]
    push_cast
    field_simp
  exact roundWithAccuracy_eq hc h hloc hx hfine .positive

include h₁ h₂ in
/-- The exponents of the operands bound that of the quotient from below. -/
theorem totalExponent_sub_le {top : Int} (hx : InBinade (m₁ * 2 ^ e₁ / (m₂ * 2 ^ e₂)) top) :
    totalExponent m₁ e₁ - totalExponent m₂ e₂ ≤ top := by
  have hm₂ : (0 : ℚ) < m₂ := by exact_mod_cast h₂
  have hself : (2 : ℚ) ^ (m₁.log2 : Int) ≤ m₁ := by
    rw [zpow_natCast]
    exact_mod_cast Nat.log2_self_le h₁.ne'
  have hnext : (m₂ : ℚ) < 2 ^ ((m₂.log2 : Int) + 1) := by
    exact_mod_cast Nat.lt_log2_self
  have hlt : (m₁.log2 : Int) + e₁ - (m₂.log2 + 1 + e₂) < top := by
    apply lt_of_zpow_lt
    refine lt_of_le_of_lt ?_ hx.2
    rw [zpow_sub₀ (by norm_num), zpow_add₀ (by norm_num), zpow_add₀ (by norm_num)]
    gcongr
  rw [totalExponent, totalExponent]
  omega

include hc in
/-- A quotient; the division itself sees to it that the units are fine enough. -/
theorem div_eq (h : Rounds (m₁ * 2 ^ e₁ / (m₂ * 2 ^ e₂)) m e) :
    div Format.binary64 (.finite .positive m₁ e₁ h₁) (.finite .positive m₂ e₂ h₂) = .finite .positive m e hc.pos := by
  have hm₁ : (0 : ℚ) < m₁ := by exact_mod_cast h₁
  have hm₂ : (0 : ℚ) < m₂ := by exact_mod_cast h₂
  obtain ⟨top, hx⟩ := exists_inBinade (show (0 : ℚ) < m₁ * 2 ^ e₁ / (m₂ * 2 ^ e₂) by positivity)
  have htop := totalExponent_sub_le h₁ h₂ hx
  set exponent := min (e₁ - e₂) (Format.binary64.targetExponent (totalExponent m₁ e₁ - totalExponent m₂ e₂))
    with hexponent
  have hfine : exponent ≤ target top := by
    have htarget : Format.binary64.targetExponent (totalExponent m₁ e₁ - totalExponent m₂ e₂)
        = max (totalExponent m₁ e₁ - totalExponent m₂ e₂ - 53) (-1074) := rfl
    rw [hexponent, htarget, target]
    omega
  obtain ⟨k, hk⟩ := Int.eq_ofNat_of_zero_le (show 0 ≤ e₁ - e₂ - exponent by omega)
  have hloc : Locates ((m₁ * 2 ^ e₁ / (m₂ * 2 ^ e₂) : ℚ) / 2 ^ exponent) ((m₁ <<< k) / m₂)
      (accuracyOfFraction ((m₁ <<< k) % m₂) m₂) := by
    have hunits : (m₁ * 2 ^ e₁ / (m₂ * 2 ^ e₂) : ℚ) / 2 ^ exponent = (m₁ <<< k : Nat) / m₂ := by
      have he : e₁ = k + (e₂ + exponent) := by omega
      rw [he, zpow_add₀ (by norm_num), zpow_add₀ (by norm_num), zpow_natCast, Nat.shiftLeft_eq]
      push_cast
      field_simp
    rw [hunits]
    exact locates_div _ h₂
  have hdiv : div Format.binary64 (.finite .positive m₁ e₁ h₁) (.finite .positive m₂ e₂ h₂)
      = roundWithAccuracy Format.binary64 .positive ((m₁ <<< (e₁ - e₂ - exponent).toNat) / m₂) exponent
          (accuracyOfFraction ((m₁ <<< (e₁ - e₂ - exponent).toNat) % m₂) m₂) := rfl
  rw [hdiv, hk, Int.toNat_natCast]
  exact roundWithAccuracy_eq hc h hloc hx hfine .positive

end

end Stopwatch.Rounding
