import Mathlib.Tactic.Common
import Stopwatch.Number.Shortest
import Stopwatch.Proofs.Numerals
import Stopwatch.Proofs.Rounding

/-!
The shortest digits of a double. Whatever numeral the search stops at rounds to the double it was searched for, and with
seventeen digits it always stops.
-/

namespace Stopwatch

open Rounding

/-! ### Fractions -/

namespace Double

theorem den_ratio_pos (m : Nat) (e : Int) : 0 < (ratio m e).2 := by
  unfold ratio
  split
  · exact Nat.one_pos
  · exact Nat.pow_pos (by decide)

theorem ratio_eq (m : Nat) (e : Int) : ((ratio m e).1 : ℚ) / (ratio m e).2 = m * 2 ^ e := by
  unfold ratio
  split
  · next he =>
    obtain ⟨k, rfl⟩ := Int.eq_ofNat_of_zero_le he
    simp
  · next he =>
    obtain ⟨k, hk⟩ := Int.eq_ofNat_of_zero_le (show 0 ≤ -e by omega)
    rw [show e = -(k : Int) by omega, zpow_neg, zpow_natCast]
    simp [div_eq_mul_inv]

theorem den_scaleDown_pos {r : Nat × Nat} (h : 0 < r.2) (power : Int) : 0 < (scaleDown r power).2 := by
  unfold scaleDown
  split
  · exact Nat.mul_pos h (Nat.pow_pos (by decide))
  · exact h

theorem scaleDown_eq (r : Nat × Nat) (power : Int) :
    ((scaleDown r power).1 : ℚ) / (scaleDown r power).2 = r.1 / r.2 / 10 ^ power := by
  unfold scaleDown
  split
  · next hpower =>
    obtain ⟨k, rfl⟩ := Int.eq_ofNat_of_zero_le hpower
    simp [div_div]
  · next hpower =>
    obtain ⟨k, hk⟩ := Int.eq_ofNat_of_zero_le (show 0 ≤ -power by omega)
    rw [show power = -(k : Int) by omega, zpow_neg, zpow_natCast]
    simp
    ring

theorem roundDiv_eq (num den : Nat) : roundDiv num den = num / den ∨ roundDiv num den = num / den + 1 := by
  unfold roundDiv
  simp only
  split_ifs <;> simp

theorem leadingZeros_eq {fuel num den : Nat} (h : den ≤ num * 10 ^ fuel) (k : Nat) :
    ∃ z, leadingZeros fuel k (num, den) = k + z ∧ den ≤ num * 10 ^ z := by
  induction fuel generalizing num k with
  | zero => exact ⟨0, rfl, h⟩
  | succ fuel ih =>
    rw [leadingZeros]
    split
    · next hle => exact ⟨0, rfl, by simpa using hle⟩
    · obtain ⟨z, hz, hle⟩ := ih (show den ≤ num * 10 * 10 ^ fuel by rw [Nat.pow_succ'] at h; linarith) (k + 1)
      exact ⟨z + 1, by omega, by rw [Nat.pow_succ']; linarith⟩

/-- The power of ten of the first digit does not exceed the number. -/
theorem leadingExponent_le {r : Nat × Nat} (hden : 0 < r.2) (hsmall : r.2 ≤ r.1 * 10 ^ 400) :
    (10 : ℚ) ^ leadingExponent r ≤ r.1 / r.2 := by
  have hdenQ : (0 : ℚ) < r.2 := by exact_mod_cast hden
  rw [leadingExponent, le_div_iff₀ hdenQ]
  split
  · next hle =>
    have hq : r.1 / r.2 ≠ 0 := (Nat.div_pos hle hden).ne'
    have hlen : 0 < (Integer.ofNat (r.1 / r.2)).length := List.length_pos_of_ne_nil (Integer.ofNat_ne_nil _)
    obtain ⟨k, hk⟩ : ∃ k, (Integer.ofNat (r.1 / r.2)).length = k + 1 := ⟨_, (Nat.sub_add_cancel hlen).symm⟩
    have hpow : 10 ^ k * r.2 ≤ r.1 := by
      calc 10 ^ k * r.2 ≤ r.1 / r.2 * r.2 :=
            Nat.mul_le_mul_right _ (Integer.pow_le_of_length_ofNat hq hk)
        _ ≤ r.1 := Nat.div_mul_le_self _ _
    rw [hk, show ((k + 1 : Nat) : Int) - 1 = k by omega, zpow_natCast]
    exact_mod_cast hpow
  · obtain ⟨z, hz, hle⟩ := leadingZeros_eq hsmall 0
    rw [show leadingZeros 400 0 r = z from hz.trans (Nat.zero_add z), zpow_neg, zpow_natCast]
    have hleQ : (r.2 : ℚ) ≤ r.1 * 10 ^ z := by exact_mod_cast hle
    rw [inv_mul_le_iff₀ (by positivity)]
    linarith

end Double

/-! ### Intervals -/

namespace Shortest

/-- Both sides of a comparison on the grid, in the same units. -/
theorem onGrid_eq {i : Interval} (h : 0 < i.den) (power : Int) (c bound : Nat) :
    ∃ unit : ℚ, 0 < unit ∧ ((onGrid i power c bound).1 : ℚ) = c * 10 ^ power * unit ∧
      ((onGrid i power c bound).2 : ℚ) = bound / i.den * unit := by
  have hden : (0 : ℚ) < i.den := by exact_mod_cast h
  unfold onGrid
  split
  · next hpower =>
    obtain ⟨k, rfl⟩ := Int.eq_ofNat_of_zero_le hpower
    refine ⟨i.den, hden, by simp, ?_⟩
    field_simp
  · next hpower =>
    obtain ⟨k, hk⟩ := Int.eq_ofNat_of_zero_le (show 0 ≤ -power by omega)
    rw [show power = -(k : Int) by omega, zpow_neg, zpow_natCast]
    refine ⟨i.den * 10 ^ k, by positivity, ?_, ?_⟩
    · simp
      field_simp
    · simp
      field_simp

/-- Whether a numeral on the grid lies above the lower end. -/
def aboveLow (i : Interval) (power : Int) (c : Nat) : Bool :=
  (onGrid i power c i.low).2 < (onGrid i power c i.low).1
    || (i.closed && (onGrid i power c i.low).2 = (onGrid i power c i.low).1)

/-- Whether a numeral on the grid lies below the upper end. -/
def belowHigh (i : Interval) (power : Int) (c : Nat) : Bool :=
  (onGrid i power c i.high).1 < (onGrid i power c i.high).2
    || (i.closed && (onGrid i power c i.high).1 = (onGrid i power c i.high).2)

theorem aboveLow_iff {i : Interval} (h : 0 < i.den) (power : Int) (c : Nat) :
    aboveLow i power c = true ↔ (i.low / i.den : ℚ) < c * 10 ^ power ∨
      i.closed = true ∧ (i.low / i.den : ℚ) = c * 10 ^ power := by
  obtain ⟨unit, hunit, h1, h2⟩ := onGrid_eq h power c i.low
  have hlt : (onGrid i power c i.low).2 < (onGrid i power c i.low).1 ↔ (i.low / i.den : ℚ) < c * 10 ^ power := by
    rw [← Nat.cast_lt (α := ℚ), h1, h2, mul_lt_mul_iff_left₀ hunit]
  have heq : (onGrid i power c i.low).2 = (onGrid i power c i.low).1 ↔ (i.low / i.den : ℚ) = c * 10 ^ power := by
    rw [← Nat.cast_inj (R := ℚ), h1, h2, mul_left_inj' hunit.ne']
  simp only [aboveLow, Bool.or_eq_true, Bool.and_eq_true, decide_eq_true_eq, hlt, heq]

theorem belowHigh_iff {i : Interval} (h : 0 < i.den) (power : Int) (c : Nat) :
    belowHigh i power c = true ↔ (c * 10 ^ power : ℚ) < i.high / i.den ∨
      i.closed = true ∧ (c * 10 ^ power : ℚ) = i.high / i.den := by
  obtain ⟨unit, hunit, h1, h2⟩ := onGrid_eq h power c i.high
  have hlt : (onGrid i power c i.high).1 < (onGrid i power c i.high).2 ↔ (c * 10 ^ power : ℚ) < i.high / i.den := by
    rw [← Nat.cast_lt (α := ℚ), h1, h2, mul_lt_mul_iff_left₀ hunit]
  have heq : (onGrid i power c i.high).1 = (onGrid i power c i.high).2 ↔ (c * 10 ^ power : ℚ) = i.high / i.den := by
    rw [← Nat.cast_inj (R := ℚ), h1, h2, mul_left_inj' hunit.ne']
  simp only [belowHigh, Bool.or_eq_true, Bool.and_eq_true, decide_eq_true_eq, hlt, heq]

theorem pick?_eq (i : Interval) (power : Int) :
    pick? i power =
      let r := Double.scaleDown (i.value, i.den) power
      let below := r.1 / r.2
      if aboveLow i power below && belowHigh i power (below + 1) then some (Double.roundDiv r.1 r.2)
      else if aboveLow i power below then some below
      else if belowHigh i power (below + 1) then some (below + 1)
      else none := rfl

section
variable {m : Nat} {e : Int}

theorem den_interval_pos (m : Nat) (e : Int) : 0 < (interval m e).den :=
  Nat.mul_pos (by decide) (Double.den_ratio_pos 1 e)

/-- Quarters of the last place as parts of the interval. -/
theorem quarters_eq (c : Nat) (e : Int) :
    ((c * (Double.ratio 1 e).1 : Nat) : ℚ) / (4 * (Double.ratio 1 e).2 : Nat) = c / 4 * 2 ^ e := by
  have hratio := Double.ratio_eq 1 e
  rw [Nat.cast_one, one_mul] at hratio
  rw [← hratio]
  push_cast
  ring

theorem low_interval (hm : 0 < m) : ((interval m e).low : ℚ) / (interval m e).den = (m - reach m e) * 2 ^ e := by
  have hlow : (interval m e).low = (4 * m - if m = 2 ^ 52 ∧ -1074 < e then 1 else 2) * (Double.ratio 1 e).1 := by
    simp [interval]
  have hden : (interval m e).den = 4 * (Double.ratio 1 e).2 := rfl
  rw [hlow, hden, quarters_eq, Nat.cast_sub (by split <;> omega), reach]
  split
  · push_cast
    ring
  · push_cast
    ring

theorem value_interval (m : Nat) (e : Int) : ((interval m e).value : ℚ) / (interval m e).den = m * 2 ^ e := by
  have hvalue : (interval m e).value = 4 * m * (Double.ratio 1 e).1 := rfl
  have hden : (interval m e).den = 4 * (Double.ratio 1 e).2 := rfl
  rw [hvalue, hden, quarters_eq]
  push_cast
  ring

theorem high_interval (m : Nat) (e : Int) :
    ((interval m e).high : ℚ) / (interval m e).den = (m + 1 / 2) * 2 ^ e := by
  have hhigh : (interval m e).high = (4 * m + 2) * (Double.ratio 1 e).1 := rfl
  have hden : (interval m e).den = 4 * (Double.ratio 1 e).2 := rfl
  rw [hhigh, hden, quarters_eq]
  push_cast
  ring

/-- A numeral at or below the value that keeps above the lower end. -/
theorem rounds_of_aboveLow (hm : 0 < m) {power : Int} {c : Nat} (h : aboveLow (interval m e) power c = true)
    (hle : (c * 10 ^ power : ℚ) ≤ m * 2 ^ e) : Rounds (c * 10 ^ power) m e := by
  have hself := rounds_self m e
  rw [aboveLow_iff (den_interval_pos m e), low_interval hm] at h
  refine ⟨?_, le_trans hle hself.high, fun hodd => ⟨?_, lt_of_le_of_lt hle (hself.strict hodd).2⟩⟩
  · exact h.elim le_of_lt fun heq => heq.2.le
  · refine h.resolve_right fun heq => ?_
    have heven : m % 2 = 0 := of_decide_eq_true heq.1
    omega

/-- A numeral at or above the value that keeps below the upper end. -/
theorem rounds_of_belowHigh {power : Int} {c : Nat} (h : belowHigh (interval m e) power c = true)
    (hge : (m * 2 ^ e : ℚ) ≤ c * 10 ^ power) : Rounds (c * 10 ^ power) m e := by
  have hself := rounds_self m e
  rw [belowHigh_iff (den_interval_pos m e), high_interval] at h
  refine ⟨le_trans hself.low hge, ?_, fun hodd => ⟨lt_of_lt_of_le (hself.strict hodd).1 hge, ?_⟩⟩
  · exact h.elim le_of_lt fun heq => heq.2.le
  · refine h.resolve_right fun heq => ?_
    have heven : m % 2 = 0 := of_decide_eq_true heq.1
    omega

/-- The neighbours of the value on the grid. -/
theorem neighbours (m : Nat) (e power : Int) :
    let r := Double.scaleDown ((interval m e).value, (interval m e).den) power
    ((r.1 / r.2 : Nat) * 10 ^ power : ℚ) ≤ m * 2 ^ e ∧ (m * 2 ^ e : ℚ) ≤ (r.1 / r.2 + 1 : Nat) * 10 ^ power := by
  intro r
  have hscale : (r.1 : ℚ) / r.2 = m * 2 ^ e / 10 ^ power := by
    rw [Double.scaleDown_eq, value_interval]
  have hden : 0 < r.2 := Double.den_scaleDown_pos (r := ((interval m e).value, _)) (den_interval_pos m e) power
  obtain ⟨hlow, hhigh⟩ := (locates_div r.1 hden).floor
  rw [hscale] at hlow hhigh
  rw [le_div_iff₀ (by positivity)] at hlow
  rw [div_lt_iff₀ (by positivity)] at hhigh
  exact ⟨hlow, by push_cast; exact hhigh.le⟩

/-- What is picked rounds to the double. -/
theorem rounds_of_pick? (hm : 0 < m) {power : Int} {n : Nat} (h : pick? (interval m e) power = some n) :
    Rounds (n * 10 ^ power) m e := by
  obtain ⟨hle, hge⟩ := neighbours m e power
  rw [pick?_eq] at h
  simp only at h
  set r := Double.scaleDown ((interval m e).value, (interval m e).den) power
  split at h
  · next hboth =>
    obtain ⟨hbelow, habove⟩ := (Bool.and_eq_true _ _).mp hboth
    rcases Double.roundDiv_eq r.1 r.2 with hn | hn
    · rw [hn] at h
      cases h
      exact rounds_of_aboveLow hm hbelow hle
    · rw [hn] at h
      cases h
      exact rounds_of_belowHigh habove hge
  split at h
  · next hbelow =>
    cases h
    exact rounds_of_aboveLow hm hbelow hle
  split at h
  · next habove =>
    cases h
    exact rounds_of_belowHigh habove hge
  · cases h

/-- A grid finer than the interval has a numeral in it. -/
theorem pick?_isSome (hm : 0 < m) {power : Int} (hfine : (10 : ℚ) ^ power < (1 / 2 + reach m e) * 2 ^ e) :
    (pick? (interval m e) power).isSome = true := by
  rw [pick?_eq]
  simp only
  set r := Double.scaleDown ((interval m e).value, (interval m e).den) power
  split
  · rfl
  split
  · rfl
  split
  · rfl
  · next hbelow habove =>
    -- Two neighbours on the grid with the whole interval between them.
    rw [aboveLow_iff (den_interval_pos m e), low_interval hm] at hbelow
    rw [belowHigh_iff (den_interval_pos m e), high_interval] at habove
    have hlow := not_lt.mp fun hlt => hbelow (.inl hlt)
    have hhigh := not_lt.mp fun hlt => habove (.inl hlt)
    push_cast at hlow hhigh
    linarith

/-- Seventeen digits make the grid fine enough. -/
theorem fine_of_leading (hc : IsCanonical m e) {leading : Int} (h : (10 : ℚ) ^ leading ≤ m * 2 ^ e) :
    (10 : ℚ) ^ (leading - 16) < (1 / 2 + reach m e) * 2 ^ e := by
  have hpos : (0 : ℚ) < 2 ^ e := by positivity
  have hlt : (m : ℚ) + 1 ≤ 2 ^ 53 := by exact_mod_cast hc.lt
  have hgrid : (10 : ℚ) ^ (leading - 16) = 10 ^ leading / 10 ^ 16 := by
    rw [zpow_sub₀ (by norm_num), zpow_ofNat]
  rw [hgrid, div_lt_iff₀ (by norm_num), reach]
  -- 2⁵³ is below 10¹⁶; at a power of two the interval is narrower, but the mantissa is only 2⁵².
  split
  · next hnear =>
    rw [hnear.1] at h
    push_cast at h
    nlinarith
  · nlinarith

/-! ### The search -/

/-- A search that would succeed at its last grid stops at a numeral that was picked. -/
theorem search_eq {i : Interval} {leading : Int} {fuel tried : Nat}
    (h : (pick? i (leading - (tried + fuel : Nat))).isSome = true) :
    ∃ n power, search i leading (fuel + 1) tried = Numeral.ofScaled n power ∧ pick? i power = some n := by
  induction fuel generalizing tried with
  | zero =>
    obtain ⟨n, hn⟩ := Option.isSome_iff_exists.mp h
    exact ⟨n, leading - tried, by rw [search]; simp only [Nat.add_zero] at hn; rw [hn], hn⟩
  | succ fuel ih =>
    rw [search]
    cases hpick : pick? i (leading - tried) with
    | some n => exact ⟨n, leading - tried, rfl, hpick⟩
    | none => exact ih (by rwa [show tried + 1 + fuel = tried + (fuel + 1) by omega])

theorem two_pow_le {k n : Nat} (h : k ≤ 3 * n) : 2 ^ k ≤ 10 ^ n := by
  calc 2 ^ k ≤ 2 ^ (3 * n) := Nat.pow_le_pow_right (by decide) h
    _ = (2 ^ 3) ^ n := Nat.pow_mul 2 3 n
    _ ≤ 10 ^ n := Nat.pow_le_pow_left (by decide) n

/-- The shortest numeral of a double stands for a number that rounds to it. -/
theorem numeral_eq (hc : IsCanonical m e) :
    ∃ n power, numeral m e = Numeral.ofScaled n power ∧ Rounds (n * 10 ^ power) m e := by
  -- The smallest double is not smaller than the zeros that are looked for.
  have hsmall : (Double.ratio m e).2 ≤ (Double.ratio m e).1 * 10 ^ 400 := by
    have hlow := hc.low
    have hpos := hc.pos
    unfold Double.ratio
    split
    · have : 0 < m * 2 ^ e.toNat * 10 ^ 400 := by positivity
      exact this
    · exact le_trans (two_pow_le (by omega)) (Nat.le_mul_of_pos_left _ hpos)
  have hleading := Double.leadingExponent_le (Double.den_ratio_pos m e) hsmall
  rw [Double.ratio_eq] at hleading
  have hlast := pick?_isSome hc.pos (fine_of_leading hc hleading)
  obtain ⟨n, power, hsearch, hpick⟩ : ∃ n power,
      search (interval m e) (Double.leadingExponent (Double.ratio m e)) 17 0 = Numeral.ofScaled n power ∧
        pick? (interval m e) power = some n := search_eq hlast
  exact ⟨n, power, by rw [numeral, if_neg hc.pos.ne', hsearch], rounds_of_pick? hc.pos hpick⟩

end

end Shortest

/-! ### Numerals -/

namespace Numeral

/-- The number that a numeral stands for. -/
def value (n : Numeral) : ℚ := digitsValue n.digits * 10 ^ (n.exponent - (n.digits.length - 1))

/-- Digits, the first of which is no zero. -/
structure IsNormal (n : Numeral) : Prop where
  digits : IsDigits n.digits
  head : ∃ b rest, n.digits = b :: rest ∧ b ≠ Ascii.zero

/-- The digits of a number with the zeros at their end apart. -/
theorem exists_kept (s : Bytes) :
    ∃ zeros, s = (s.reverse.dropWhile (· == Ascii.zero)).reverse ++ List.replicate zeros Ascii.zero := by
  have hzeros : s.reverse.takeWhile (· == Ascii.zero)
      = List.replicate (s.reverse.takeWhile (· == Ascii.zero)).length Ascii.zero := by
    rw [List.eq_replicate_iff]
    exact ⟨rfl, fun b hb => by simpa using List.all_eq_true.mp List.all_takeWhile b hb⟩
  refine ⟨(s.reverse.takeWhile (· == Ascii.zero)).length, ?_⟩
  rw [← List.reverse_replicate, ← hzeros, ← List.reverse_append, List.takeWhile_append_dropWhile, List.reverse_reverse]

/-- Leaving out the zeros at the end keeps the number. -/
theorem ofScaled_spec {n : Nat} (hn : n ≠ 0) (unit : Int) :
    (ofScaled n unit).IsNormal ∧ (ofScaled n unit).value = n * 10 ^ unit := by
  obtain ⟨zeros, hall⟩ := exists_kept (Integer.ofNat n)
  have hofScaled : ofScaled n unit =
      let kept := ((Integer.ofNat n).reverse.dropWhile (· == Ascii.zero)).reverse
      ⟨if kept.isEmpty then [Ascii.zero] else kept, unit + ((Integer.ofNat n).length - 1)⟩ := rfl
  generalize ((Integer.ofNat n).reverse.dropWhile (· == Ascii.zero)).reverse = kept at hall hofScaled
  obtain ⟨d, tail, hcons, -, hd⟩ := Integer.exists_cons_ofNat hn
  have hdigits := Integer.isDigits_ofNat n
  have hvalue := Integer.digitsValue_ofNat n
  rw [hall] at hdigits hvalue hcons
  rcases kept with _ | ⟨b, rest⟩
  · cases zeros with
    | zero => cases hcons
    | succ k => exact absurd (List.cons.inj hcons).1.symm hd
  · rw [hofScaled, hall]
    refine ⟨⟨(isDigits_append.mp hdigits).1, b, rest, rfl, ?_⟩, ?_⟩
    · rw [(List.cons.inj hcons).1]
      exact hd
    rw [digitsValue_append, digitsValue_replicate_zero, List.length_replicate, Nat.add_zero] at hvalue
    have hvalueQ : (digitsValue (b :: rest) : ℚ) * 10 ^ zeros = n := by exact_mod_cast hvalue
    simp only [value, List.isEmpty_cons, Bool.false_eq_true, if_false, List.length_append, List.length_replicate]
    rw [← hvalueQ, mul_assoc, ← zpow_natCast, ← zpow_add₀ (by norm_num)]
    congr 2
    push_cast
    ring

end Numeral

theorem Shortest.numeral_spec {m : Nat} {e : Int} (hc : IsCanonical m e) :
    (numeral m e).IsNormal ∧ Rounds (numeral m e).value m e := by
  obtain ⟨n, power, hnumeral, hrounds⟩ := numeral_eq hc
  obtain ⟨hnormal, hvalue⟩ := Numeral.ofScaled_spec (hrounds.ne_zero hc) power
  rw [hnumeral, hvalue]
  exact ⟨hnormal, hrounds⟩

end Stopwatch
