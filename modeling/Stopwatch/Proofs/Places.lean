import Stopwatch.Number.Layout
import Stopwatch.Proofs.ShortestDigits

/-!
Doubles with a fixed number of decimal places. What is shown is the nearest number of units of the last place, the even
one of two, with the whole units before the point and the rest after it.
-/

namespace Stopwatch

open Rounding

/-! ### Rounding a quotient -/

/-- Nothing else rounds to a whole number that is nearer than a half. -/
theorem Rounding.RoundsTo.eq_of_near {y : ℚ} {k n : Nat} (h : RoundsTo y k) (hnear : |y - n| < 1 / 2) : k = n := by
  rw [abs_lt] at hnear
  have hbelow : (k : ℚ) < n + 1 := by linarith [h.low]
  have habove : (n : ℚ) < k + 1 := by linarith [h.high]
  norm_cast at hbelow habove
  omega

/-- A quotient is rounded to the nearest whole number, a tie to the even one. -/
theorem Double.roundsTo_roundDiv (num : Nat) {den : Nat} (hden : 0 < den) :
    RoundsTo ((num : ℚ) / den) (roundDiv num den) := by
  have hdenQ : (0 : ℚ) < den := by exact_mod_cast hden
  have hrest : ((num % den : Nat) : ℚ) < den := by exact_mod_cast Nat.mod_lt num hden
  have hvalue : (num : ℚ) / den = (num / den : Nat) + ((num % den : Nat) : ℚ) / den := by
    have hsum : (den : ℚ) * (num / den : Nat) + (num % den : Nat) = num := by exact_mod_cast Nat.div_add_mod num den
    rw [div_eq_iff hdenQ.ne', add_mul, div_mul_cancel₀ _ hdenQ.ne']
    linarith
  unfold roundDiv
  generalize num / den = q at *
  generalize num % den = r at *
  have hnonneg : (0 : ℚ) ≤ r / den := by positivity
  have hlt : (r : ℚ) / den < 1 := (div_lt_one hdenQ).mpr hrest
  rw [hvalue]
  -- the remainder tells on which side of the half the quotient lies
  rcases lt_trichotomy (2 * r) den with hless | heq | hmore
  · have hhalf : (r : ℚ) / den < 1 / 2 := by
      rw [div_lt_iff₀ hdenQ]
      have : (2 * r : ℚ) < den := by exact_mod_cast hless
      linarith
    simp only [if_pos hless]
    exact ⟨by linarith, by linarith, fun _ => ⟨by linarith, by linarith⟩⟩
  · have hhalf : (r : ℚ) / den = 1 / 2 := by
      rw [div_eq_iff hdenQ.ne']
      have : (2 * r : ℚ) = den := by exact_mod_cast heq
      linarith
    simp only [heq, lt_irrefl, if_false]
    split
    · exact ⟨by linarith, by linarith, fun hodd => by omega⟩
    · refine ⟨?_, ?_, fun hodd => by omega⟩ <;> push_cast <;> linarith
  · have hhalf : 1 / 2 < (r : ℚ) / den := by
      rw [lt_div_iff₀ hdenQ]
      have : (den : ℚ) < 2 * r := by exact_mod_cast hmore
      linarith
    simp only [if_neg hmore.not_gt, if_pos hmore]
    refine ⟨?_, ?_, fun _ => ⟨?_, ?_⟩⟩ <;> push_cast <;> linarith

/-! ### Places after the point -/

namespace Layout

/-- The last so many digits of a number. -/
def lastDigits : Nat → Nat → Bytes
  | 0, _ => []
  | places + 1, n => lastDigits places (n / 10) ++ [Integer.digit (n % 10)]

/-- The numeral of a number with zeros in front, at least so many digits long. -/
def padded (width n : Nat) : Bytes :=
  List.replicate (width - (Integer.ofNat n).length) Ascii.zero ++ Integer.ofNat n

theorem length_lastDigits (places n : Nat) : (lastDigits places n).length = places := by
  induction places generalizing n with
  | zero => rfl
  | succ places ih => simp [lastDigits, ih]

theorem lastDigits_mod (places n : Nat) : lastDigits places (n % 10 ^ places) = lastDigits places n := by
  induction places generalizing n with
  | zero => rfl
  | succ places ih =>
    have hdiv : n % 10 ^ (places + 1) / 10 = n / 10 % 10 ^ places := by
      rw [pow_succ', Nat.mod_mul_right_div_self]
    have hmod : n % 10 ^ (places + 1) % 10 = n % 10 := Nat.mod_mod_of_dvd n (dvd_pow_self 10 (by omega))
    rw [lastDigits, hdiv, hmod, ih, lastDigits]

/-- A numeral ends in the last digits of its number. -/
theorem ofNat_eq_append {places n : Nat} (h : 10 ^ places ≤ n) :
    Integer.ofNat n = Integer.ofNat (n / 10 ^ places) ++ lastDigits places n := by
  induction places generalizing n with
  | zero => simp [lastDigits]
  | succ places ih =>
    have hpow : 1 ≤ 10 ^ places := Nat.one_le_pow _ _ (by decide)
    have hge : 10 ≤ n := by rw [pow_succ'] at h; omega
    have hdiv : 10 ^ places ≤ n / 10 := by rw [pow_succ'] at h; omega
    rw [Integer.ofNat_of_ge hge, ih hdiv, lastDigits, Nat.div_div_eq_div_mul, ← pow_succ', List.append_assoc]

theorem replicate_of_lastDigits_zero (places : Nat) : lastDigits places 0 = List.replicate places Ascii.zero := by
  induction places with
  | zero => rfl
  | succ places ih =>
    rw [lastDigits, Nat.zero_div, ih, List.replicate_succ']
    rfl

/-- A small number fills its places from the right. -/
theorem padded_eq_lastDigits {places n : Nat} (hplaces : 0 < places) (h : n < 10 ^ places) :
    padded places n = lastDigits places n := by
  induction places generalizing n with
  | zero => omega
  | succ places ih =>
    rcases Nat.lt_or_ge n 10 with hsmall | hlarge
    · rw [padded, Integer.ofNat_of_lt hsmall, lastDigits, Nat.div_eq_of_lt hsmall, Nat.mod_eq_of_lt hsmall,
        replicate_of_lastDigits_zero]
      rfl
    · have hplaces : 0 < places := by
        rcases Nat.eq_zero_or_pos places with rfl | hpos
        · omega
        · exact hpos
      have hdiv : n / 10 < 10 ^ places := by rw [pow_succ'] at h; omega
      rw [lastDigits, ← ih hplaces hdiv, padded, padded, Integer.ofNat_of_ge hlarge, List.length_append,
        List.length_singleton, Nat.add_sub_add_right, List.append_assoc]

theorem length_ofNat_le {places n : Nat} (hplaces : 0 < places) (h : n < 10 ^ places) :
    (Integer.ofNat n).length ≤ places := by
  have hlength := congrArg List.length (padded_eq_lastDigits hplaces h)
  rw [padded, length_lastDigits, List.length_append] at hlength
  omega

/-- The whole units stand before the point, and the rest fills the places after it. -/
theorem withPlaces_eq {places : Nat} (hplaces : 0 < places) (n : Nat) :
    withPlaces places n = Integer.ofNat (n / 10 ^ places) ++ Ascii.dot :: padded places (n % 10 ^ places) := by
  have hrest : padded places (n % 10 ^ places) = lastDigits places n := by
    rw [padded_eq_lastDigits hplaces (Nat.mod_lt n (by positivity)), lastDigits_mod]
  have hcut : List.replicate (places + 1 - (Integer.ofNat n).length) Ascii.zero ++ Integer.ofNat n =
      Integer.ofNat (n / 10 ^ places) ++ lastDigits places n := by
    rcases Nat.lt_or_ge n (10 ^ places) with hsmall | hlarge
    · have hlength := length_ofNat_le hplaces hsmall
      rw [Nat.div_eq_of_lt hsmall, ← padded_eq_lastDigits hplaces hsmall, padded, Nat.succ_sub hlength,
        List.replicate_succ]
      rfl
    · have happend := ofNat_eq_append hlarge
      have hlength : places + 1 ≤ (Integer.ofNat n).length := by
        have hpos := List.length_pos_of_ne_nil (Integer.ofNat_ne_nil (n / 10 ^ places))
        rw [happend, List.length_append, length_lastDigits]
        omega
      rw [Nat.sub_eq_zero_of_le hlength, List.replicate_zero, List.nil_append, happend]
  have hwhole : (Integer.ofNat (n / 10 ^ places) ++ lastDigits places n).length - places =
      (Integer.ofNat (n / 10 ^ places)).length := by
    rw [List.length_append, length_lastDigits, Nat.add_sub_cancel]
  simp only [withPlaces, hcut, hwhole, if_neg hplaces.ne', hrest, List.take_left, List.drop_left]

/-- A finite double with places after the point is shown as the nearest number of units of the last place, the even one of
two. -/
theorem fixed_eq {places m : Nat} {e : Int} {negative : Bool} {x : Float} (hx : Double.ofFloat x = .finite negative m e) :
    ∃ n : Nat, RoundsTo (m * 2 ^ e * 10 ^ places) n ∧
      fixed places x = (if negative then [Ascii.minus] else []) ++ withPlaces places n := by
  have hden := Double.den_scaleDown_pos (Double.den_ratio_pos m e) (-places)
  have hvalue := Double.scaleDown_eq (Double.ratio m e) (-places)
  rw [Double.ratio_eq, zpow_neg, zpow_natCast, div_inv_eq_mul] at hvalue
  refine ⟨_, hvalue ▸ Double.roundsTo_roundDiv _ hden, ?_⟩
  simp only [fixed, layout, hx]

theorem fixed_of_near {places n m : Nat} {e : Int} {x : Float} (hx : Double.ofFloat x = .finite false m e)
    (h : |(m : ℚ) * 2 ^ e * 10 ^ places - n| < 1 / 2) : fixed places x = withPlaces places n := by
  obtain ⟨k, hk, hfixed⟩ := fixed_eq hx
  rw [hfixed, hk.eq_of_near h]
  rfl

end Layout

end Stopwatch
