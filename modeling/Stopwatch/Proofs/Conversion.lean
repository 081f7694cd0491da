import Stopwatch.Proofs.Doubles

/-!
From decimal to double. A whole number times a power of ten is turned into the double in whose interval it lies, also
where two exact doubles are multiplied or divided instead of whole numbers.
-/

namespace Stopwatch.Double

open Float.Model Float.Model.UnpackedFloat Rounding

/-! ### By whole numbers -/

section
variable {m : Nat} {e : Int} (hc : IsCanonical m e) {n : Nat} {power : Int} (h : Rounds (n * 10 ^ power) m e)
include hc h

/-- No double is reached by a huge power of ten. -/
theorem power_le : ¬ power > 2 ^ Format.binary64.exponentBits := by
  intro hpower
  have hpower' : 2048 < power := hpower
  have hone : (1 : ℚ) ≤ n := by exact_mod_cast Nat.pos_of_ne_zero (h.ne_zero hc)
  refine absurd (h.upper hc) (not_lt.mpr ?_)
  calc (2 : ℚ) ^ (1024 : Int) ≤ 2 ^ power := zpow_le_zpow_right₀ (by norm_num) (by omega)
    _ ≤ 10 ^ power := zpow_le_zpow_left₀ (by omega) (by norm_num) (by norm_num)
    _ ≤ n * 10 ^ power := le_mul_of_one_le_left (by positivity) hone

/-- No double other than zero is reached by a tiny power of ten. -/
theorem le_power : ¬ power < -((2 ^ Format.binary64.exponentBits : Int) + n.log2) := by
  intro hpower
  have hpower' : power < -(2048 + n.log2 : Int) := hpower
  refine absurd (h.lower hc) (not_le.mpr ?_)
  have hnext : (n : ℚ) < 2 ^ ((n.log2 : Int) + 1) := by exact_mod_cast Nat.lt_log2_self
  have hten : (10 : ℚ) ^ power ≤ 2 ^ power := by
    rw [← inv_le_inv₀ (by positivity) (by positivity), ← zpow_neg, ← zpow_neg]
    exact zpow_le_zpow_left₀ (by omega) (by norm_num) (by norm_num)
  calc (n : ℚ) * 10 ^ power < 2 ^ ((n.log2 : Int) + 1) * 2 ^ power :=
      mul_lt_mul hnext hten (by positivity) (by positivity)
    _ = 2 ^ ((n.log2 : Int) + 1 + power) := (zpow_add₀ (by norm_num) _ _).symm
    _ ≤ 2 ^ (-1075 : Int) := zpow_le_zpow_right₀ (by norm_num) (by omega)

/-- The exact conversion, past its guards against huge powers of ten. -/
theorem model_ofScientific : UnpackedFloat.ofScientific Format.binary64 n power = .finite .positive m e hc.pos := by
  have hn := h.ne_zero hc
  rw [UnpackedFloat.ofScientific, dif_neg hn, if_neg (power_le hc h), if_neg (le_power hc h)]
  split
  · next hpower =>
    obtain ⟨k, rfl⟩ := Int.eq_ofNat_of_zero_le hpower
    have hvalue : ((n <<< Format.binary64.mantissaBits : Nat) : ℚ) * 2 ^ (-Format.binary64.mantissaBits : Int)
        * ((10 ^ (k : Int).toNat : Nat) * 2 ^ (0 : Int)) = n * 10 ^ (k : Int) := by
      rw [Nat.shiftLeft_eq, show (Format.binary64.mantissaBits : Nat) = 53 from rfl]
      push_cast
      rw [zpow_neg, zpow_natCast, Int.toNat_natCast]
      field_simp
      norm_num
    have hpos : (1 : ℚ) ≤ n * 10 ^ (k : Int) := by
      have hone : (1 : ℚ) ≤ n := by exact_mod_cast Nat.pos_of_ne_zero hn
      have hten : (1 : ℚ) ≤ 10 ^ (k : Int) := one_le_zpow₀ (by norm_num) hpower
      nlinarith
    -- The number is not below one, so that units of 2⁻⁵³ are fine enough.
    obtain ⟨top, hx⟩ := exists_inBinade (lt_of_lt_of_le one_pos hpos)
    have htop : 0 < top := by
      apply lt_of_zpow_lt
      rw [zpow_zero]
      exact lt_of_le_of_lt hpos hx.2
    rw [← hvalue] at h hx
    refine mul_eq _ _ hc h hx ?_
    rw [target, show (Format.binary64.mantissaBits : Nat) = 53 from rfl]
    omega
  · next hpower =>
    have hvalue : (n : ℚ) * 2 ^ (0 : Int) / ((10 ^ (-power).toNat : Nat) * 2 ^ (0 : Int)) = n * 10 ^ power := by
      obtain ⟨k, hk⟩ := Int.eq_ofNat_of_zero_le (show 0 ≤ -power by omega)
      rw [show power = -(k : Int) by omega, neg_neg, Int.toNat_natCast, zpow_neg, zpow_natCast]
      push_cast
      ring
    rw [← hvalue] at h
    exact div_eq _ _ hc h

end

/-! ### By exact doubles -/

/-- A double that is a given number exactly, with a full mantissa. -/
def IsExactly (x : Float) (n : ℚ) : Prop :=
  ∃ m e, ∃ hc : IsCanonical m e, 2 ^ 52 ≤ m ∧ (m : ℚ) * 2 ^ e = n ∧ x = assemble (.finite .positive m e hc.pos)

/-- A whole number is brought to a full mantissa by a shift that drops no bit. -/
theorem ofNat_eq {n k : Nat} (hc : IsCanonical (n * 2 ^ k) (-k : Int)) (hk : n.log2 + k = 52) :
    UnpackedFloat.ofNat Format.binary64 n = .finite .positive (n * 2 ^ k) (-k) hc.pos := by
  have hpos : 0 < n := Nat.pos_of_mul_pos_right hc.pos
  have hcmp : compare (n : Int) 0 = .gt := by
    rw [Int.compare_eq_gt]
    omega
  have htarget : Format.binary64.targetExponent (totalExponent n 0) = -k := by
    have hrfl : Format.binary64.targetExponent (totalExponent n 0) = max ((n.log2 : Int) + 1 + 0 - 53) (-1074) := rfl
    omega
  have hshift : ((0 : Int) - -k).toNat = k := by omega
  have hbinade : InBinade n (n.log2 + 1) := by
    refine ⟨?_, by exact_mod_cast Nat.lt_log2_self⟩
    rw [add_sub_cancel_right, zpow_natCast]
    exact_mod_cast Nat.log2_self_le hpos.ne'
  have hvalue : (n : ℚ) / 2 ^ (-k : Int) = (n * 2 ^ k : Nat) := by
    rw [zpow_neg, zpow_natCast]
    push_cast
    field_simp
  have hrounds : Rounds (n : ℚ) (n * 2 ^ k) (-k) := by
    have := rounds_self (n * 2 ^ k) (-k)
    rwa [← hvalue, div_mul_cancel₀ _ (by positivity)] at this
  have hloc : Locates ((n : ℚ) / 2 ^ (-k : Int)) (n * 2 ^ k) .exact := hvalue
  simp only [UnpackedFloat.ofNat, UnpackedFloat.ofInt, UnpackedFloat.normalize, hcmp, Int.toNat_natCast,
    UnpackedFloat.round, htarget, decreaseExponent, hshift, Nat.shiftLeft_eq]
  rw [Int.zero_sub]
  exact roundWithAccuracy_eq hc hrounds hloc hbinade (by rw [target]; omega) .positive

/-- A whole number of at most 53 bits is a double. -/
theorem isExactly_toFloat {n : Nat} (hpos : 0 < n) (hlt : n < 2 ^ 53) : IsExactly n.toUInt64.toFloat n := by
  have hlog : n.log2 ≤ 52 := Nat.lt_succ_iff.mp ((Nat.log2_lt hpos.ne').mpr hlt)
  obtain ⟨k, hk⟩ : ∃ k, n.log2 + k = 52 := ⟨52 - n.log2, by omega⟩
  have hfull : 2 ^ 52 ≤ n * 2 ^ k := by
    calc 2 ^ 52 = 2 ^ n.log2 * 2 ^ k := by rw [← pow_add, hk]
      _ ≤ n * 2 ^ k := Nat.mul_le_mul_right _ (Nat.log2_self_le hpos.ne')
  have hc : IsCanonical (n * 2 ^ k) (-k : Int) := by
    refine ⟨by positivity, ?_, by omega, by omega, by omega⟩
    calc n * 2 ^ k < 2 ^ (n.log2 + 1) * 2 ^ k := Nat.mul_lt_mul_of_pos_right Nat.lt_log2_self (by positivity)
      _ = 2 ^ 53 := by rw [← pow_add, show n.log2 + 1 + k = 53 by omega]
  have hvalue : ((n * 2 ^ k : Nat) : ℚ) * 2 ^ (-k : Int) = n := by
    rw [zpow_neg, zpow_natCast]
    push_cast
    field_simp
  have hfloat : n.toUInt64.toFloat = assemble (UnpackedFloat.ofNat Format.binary64 n.toUInt64.toNat) := rfl
  have hsmall : n.toUInt64.toNat = n := Nat.mod_eq_of_lt (by omega)
  exact ⟨n * 2 ^ k, -k, hc, hfull, hvalue, by rw [hfloat, hsmall, ofNat_eq hc hk]⟩

/-- Whether a double taken apart is a power of ten, with a full mantissa. -/
def isPowerOfTen (k : Nat) : Double → Bool
  | .finite false m e => 2 ^ 52 ≤ m && -52 ≤ e && m * 2 ^ (e + 52).toNat = 10 ^ k * 2 ^ 52
  | _ => false

theorem isPowerOfTen_table : ∀ k : Fin Float.exactlyRepresentablePowersOfTen.size,
    isPowerOfTen k (ofFloat Float.exactlyRepresentablePowersOfTen[k]) = true := by
  decide

/-- The powers of ten that are kept are the powers of ten. -/
theorem isExactly_powerOfTen {k : Nat} (h : k < Float.exactlyRepresentablePowersOfTen.size) :
    IsExactly Float.exactlyRepresentablePowersOfTen[k] (10 ^ k) := by
  have hpower := isPowerOfTen_table ⟨k, h⟩
  rw [Fin.getElem_fin, isPowerOfTen.eq_def] at hpower
  split at hpower
  · next m e hfinite =>
    simp only [Bool.and_eq_true, decide_eq_true_eq] at hpower
    obtain ⟨⟨hfull, hlow⟩, hvalue⟩ := hpower
    obtain ⟨hc, hx⟩ := eq_assemble_of_ofFloat hfinite (by omega)
    refine ⟨m, e, hc, hfull, ?_, hx⟩
    have hvalueQ : (m : ℚ) * 2 ^ (e + 52) = 10 ^ k * 2 ^ (52 : Int) := by
      rw [← Int.toNat_of_nonneg (show 0 ≤ e + 52 by omega), zpow_natCast]
      exact_mod_cast hvalue
    rw [zpow_add₀ (by norm_num), ← mul_assoc] at hvalueQ
    exact mul_right_cancel₀ (by positivity) hvalueQ
  · exact absurd hpower Bool.false_ne_true

section
variable {x y : Float} {a b : ℚ} {m : Nat} {e : Int} (hx : IsExactly x a) (hy : IsExactly y b) (hc : IsCanonical m e)
include hx hy

/-- The product of exact doubles is rounded from the exact product. -/
theorem mul_eq_assemble (h : Rounds (a * b) m e) : x * y = assemble (.finite .positive m e hc.pos) := by
  obtain ⟨m₁, e₁, hc₁, hfull₁, rfl, rfl⟩ := hx
  obtain ⟨m₂, e₂, hc₂, hfull₂, rfl, rfl⟩ := hy
  have hparts : assemble (.finite .positive m₁ e₁ hc₁.pos) * assemble (.finite .positive m₂ e₂ hc₂.pos)
      = assemble (mul Format.binary64 (Float.Model.pack (.finite .positive m₁ e₁ hc₁.pos)).unpack
          (Float.Model.pack (.finite .positive m₂ e₂ hc₂.pos)).unpack) := rfl
  have hm₁ : (2 : ℚ) ^ (52 : Int) ≤ m₁ := by exact_mod_cast hfull₁
  have hm₂ : (2 : ℚ) ^ (52 : Int) ≤ m₂ := by exact_mod_cast hfull₂
  have hlow : (2 : ℚ) ^ (52 + e₁ + (52 + e₂)) ≤ m₁ * 2 ^ e₁ * (m₂ * 2 ^ e₂) := by
    rw [zpow_add₀ (by norm_num), zpow_add₀ (by norm_num), zpow_add₀ (by norm_num)]
    gcongr
  obtain ⟨top, hbinade⟩ := exists_inBinade (lt_of_lt_of_le (by positivity) hlow)
  have htop : 52 + e₁ + (52 + e₂) < top := lt_of_zpow_lt (lt_of_le_of_lt hlow hbinade.2)
  rw [hparts, unpack_pack_finite hc₁, unpack_pack_finite hc₂, mul_eq _ _ hc h hbinade (by rw [target]; omega)]

/-- The quotient of exact doubles is rounded from the exact quotient. -/
theorem div_eq_assemble (h : Rounds (a / b) m e) : x / y = assemble (.finite .positive m e hc.pos) := by
  obtain ⟨m₁, e₁, hc₁, -, rfl, rfl⟩ := hx
  obtain ⟨m₂, e₂, hc₂, -, rfl, rfl⟩ := hy
  have hparts : assemble (.finite .positive m₁ e₁ hc₁.pos) / assemble (.finite .positive m₂ e₂ hc₂.pos)
      = assemble (div Format.binary64 (Float.Model.pack (.finite .positive m₁ e₁ hc₁.pos)).unpack
          (Float.Model.pack (.finite .positive m₂ e₂ hc₂.pos)).unpack) := rfl
  rw [hparts, unpack_pack_finite hc₁, unpack_pack_finite hc₂, div_eq _ _ hc h]

end

/-- A decimal number becomes the double in whose interval it lies. -/
theorem ofScientific_eq_assemble {m : Nat} {e : Int} (hc : IsCanonical m e) {n : Nat} {power : Int}
    (h : Rounds (n * 10 ^ power) m e) :
    Float.ofScientific n (power < 0) power.natAbs = assemble (.finite .positive m e hc.pos) := by
  have hn : 0 < n := Nat.pos_of_ne_zero (h.ne_zero hc)
  rw [Float.ofScientific]
  split
  · next hfast =>
    have hsize : power.natAbs < Float.exactlyRepresentablePowersOfTen.size := Nat.lt_succ_of_le hfast.2
    have hx := isExactly_toFloat hn hfast.1
    have hy := isExactly_powerOfTen hsize
    rcases Int.lt_or_le power 0 with hneg | hnonneg
    · have hvalue : (n : ℚ) * 10 ^ power = n / 10 ^ power.natAbs := by
        rw [show power = -(power.natAbs : Int) by omega, zpow_neg, zpow_natCast, Int.natAbs_neg, Int.natAbs_natCast]
        ring
      rw [hvalue] at h
      simp only [hneg, decide_true, if_true]
      exact div_eq_assemble hx hy hc h
    · have hvalue : (n : ℚ) * 10 ^ power = n * 10 ^ power.natAbs := by
        rw [show power = (power.natAbs : Int) by omega, zpow_natCast, Int.natAbs_natCast]
      rw [hvalue] at h
      simp only [not_lt.mpr hnonneg, decide_false]
      exact mul_eq_assemble hx hy hc h
  · have hpower : (if decide (power < 0) = true then Int.negOfNat power.natAbs else Int.ofNat power.natAbs) = power := by
      rcases Int.lt_or_le power 0 with hneg | hnonneg
      · rw [if_pos (decide_eq_true hneg), Int.negOfNat_eq]
        simp only [Int.ofNat_eq_natCast]
        omega
      · rw [if_neg (by simpa using hnonneg)]
        simp only [Int.ofNat_eq_natCast]
        omega
    simp only [hpower, Float.Model.ofScientific, model_ofScientific hc h]
    rfl

end Stopwatch.Double
