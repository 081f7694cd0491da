import Stopwatch.Proofs.Conversion
import Stopwatch.Proofs.MetaLines
import Stopwatch.Proofs.Places
import Stopwatch.Proofs.RunWords

/-!
Limits with three decimal places. A number of milliseconds is divided by a thousand in doubles, which is hardly ever
exact. The double is so near to the quotient, though, that three places after the point show the milliseconds again, and
so does its double for twice as many.
-/

namespace Stopwatch

/-! ### The nearest double -/

namespace Rounding

theorem exists_roundsTo {y : ℚ} (h : 0 ≤ y) : ∃ n : Nat, RoundsTo y n := by
  have hfloor : (⌊y⌋₊ : ℚ) ≤ y := Nat.floor_le h
  have hnext : y < ⌊y⌋₊ + 1 := Nat.lt_floor_add_one y
  generalize ⌊y⌋₊ = m at hfloor hnext
  rcases lt_trichotomy y (m + 1 / 2) with hlt | heq | hgt
  · exact ⟨m, by linarith, hlt.le, fun _ => ⟨by linarith, hlt⟩⟩
  · -- a tie goes to the even one of the two
    rcases Nat.mod_two_eq_zero_or_one m with heven | hodd
    · exact ⟨m, by linarith, heq.le, fun hodd => by omega⟩
    · refine ⟨m + 1, ?_, ?_, fun heven => by omega⟩ <;> push_cast <;> linarith
  · refine ⟨m + 1, ?_, ?_, fun _ => ⟨?_, ?_⟩⟩ <;> push_cast <;> linarith

/-- In units of its last place, what rounds to a full mantissa lies in the interval of the double. -/
theorem RoundsTo.rounds {y : ℚ} {m : Nat} (h : RoundsTo y m) (hfull : (2 : ℚ) ^ 52 ≤ y) (e : Int) :
    Rounds (y * 2 ^ e) m e := by
  have hunit : (0 : ℚ) < 2 ^ e := by positivity
  have hlow : (m : ℚ) - reach m e ≤ y := by
    unfold reach
    split
    · next hpower =>
      have : (m : ℚ) = 2 ^ 52 := by exact_mod_cast hpower.1
      linarith
    · exact h.low
  refine ⟨?_, ?_, fun hodd => ?_⟩
  · gcongr
  · gcongr
    exact h.high
  · have hreach : reach m e = 1 / 2 := if_neg fun hpower => by omega
    obtain ⟨hlow, hhigh⟩ := h.strict hodd
    rw [hreach]
    exact ⟨by gcongr, by gcongr⟩

/-- The first double of a binade also takes what lies just below it. -/
theorem rounds_carried {y : ℚ} (h : RoundsTo y (2 ^ 53)) (hlt : y < 2 ^ 53) (e : Int) :
    Rounds (y * 2 ^ e) (2 ^ 52) (e + 1) := by
  have hunit : (0 : ℚ) < 2 ^ e := by positivity
  have hdouble : (2 : ℚ) ^ (e + 1) = 2 * 2 ^ e := by
    rw [zpow_add₀ (by norm_num), zpow_one, mul_comm]
  have hlow := h.low
  push_cast at hlow
  have hreach : (1 : ℚ) / 4 ≤ reach (2 ^ 52) (e + 1) := by
    unfold reach
    split <;> norm_num
  refine ⟨?_, ?_, fun hodd => absurd hodd (by norm_num)⟩
  · rw [hdouble, ← mul_assoc]
    gcongr
    push_cast
    linarith
  · rw [hdouble, ← mul_assoc]
    gcongr
    push_cast
    linarith

/-- A rational in the binade of a normal double rounds to a double with a full mantissa. -/
theorem exists_rounds {x : ℚ} {top : Int} (hx : InBinade x top) (hlow : -1021 ≤ top) (hhigh : top ≤ 1023) :
    ∃ m e, IsCanonical m e ∧ 2 ^ 52 ≤ m ∧ e ≤ top - 52 ∧ Rounds x m e := by
  have hunit : (0 : ℚ) < 2 ^ (top - 53) := by positivity
  have hbinade : (2 : ℚ) ^ 52 ≤ x / 2 ^ (top - 53) ∧ x / 2 ^ (top - 53) < 2 ^ 53 := by
    rw [le_div_iff₀ hunit, div_lt_iff₀ hunit, ← zpow_natCast, ← zpow_natCast, ← zpow_add₀ (by norm_num),
      ← zpow_add₀ (by norm_num)]
    have hbelow : ((52 : Nat) : Int) + (top - 53) = top - 1 := by omega
    have habove : ((53 : Nat) : Int) + (top - 53) = top := by omega
    rw [hbelow, habove]
    exact hx
  have hvalue : x = x / 2 ^ (top - 53) * 2 ^ (top - 53) := (div_mul_cancel₀ x hunit.ne').symm
  generalize x / 2 ^ (top - 53) = y at hbinade hvalue
  obtain ⟨hfull, hlt⟩ := hbinade
  obtain ⟨n, hround⟩ := exists_roundsTo (le_trans (by positivity) hfull)
  have hmin : 2 ^ 52 ≤ n := by
    have : (2 : ℚ) ^ 52 < n + 1 := by linarith [hround.high]
    exact Nat.lt_succ_iff.mp (by exact_mod_cast this)
  have hmax : n ≤ 2 ^ 53 := by
    have : (n : ℚ) < 2 ^ 53 + 1 := by linarith [hround.low]
    exact Nat.lt_succ_iff.mp (by exact_mod_cast this)
  rcases hmax.lt_or_eq with hin | rfl
  · exact ⟨n, top - 53, ⟨by omega, hin, by omega, by omega, fun hsmall => by omega⟩, hmin, by omega,
      hvalue ▸ hround.rounds hfull (top - 53)⟩
  · exact ⟨2 ^ 52, top - 53 + 1, ⟨by norm_num, by norm_num, by omega, by omega, fun hsmall => absurd hsmall (by norm_num)⟩,
      le_refl _, by omega, hvalue ▸ rounds_carried hround hlt (top - 53)⟩

/-- A double is at most half a unit of its last place away from what rounds to it. -/
theorem Rounds.near {x : ℚ} {m : Nat} {e : Int} (h : Rounds x m e) : |(m : ℚ) * 2 ^ e - x| ≤ 2 ^ e / 2 := by
  have hunit : (0 : ℚ) < 2 ^ e := by positivity
  have hlow : ((m : ℚ) - 1 / 2) * 2 ^ e ≤ x := by
    refine le_trans ?_ h.low
    gcongr
    exact reach_le m e
  have hhigh := h.high
  rw [abs_le]
  constructor <;> linarith

end Rounding

namespace Double

open Float.Model Float.Model.UnpackedFloat Rounding

/-- A whole number of at most 53 bits is a double. -/
theorem isExactly_ofNat {n : Nat} (hpos : 0 < n) (hlt : n < 2 ^ 53) : IsExactly (Float.ofNat n) n := by
  obtain ⟨m, e, hc, hfull, hvalue, -⟩ := isExactly_toFloat hpos hlt
  have hrounds : Rounds (n * 10 ^ (0 : Int)) m e := by
    rw [zpow_zero, mul_one, ← hvalue]
    exact rounds_self m e
  exact ⟨m, e, hc, hfull, hvalue, ofScientific_eq_assemble hc hrounds⟩

end Double

/-! ### Limits in seconds -/

namespace Isolate

open Rounding

/-- The seconds of a limit are a double near the exact quotient. -/
theorem exists_seconds {limit : Int64} {n : Nat} (hn : limit.toInt = n) (hpos : 1 ≤ n) (hspan : n ≤ 9223372036854) :
    ∃ m e, ∃ hc : IsCanonical m e, 2 ^ 52 ≤ m ∧ e ≤ -18 ∧ |(m : ℚ) * 2 ^ e - n / 1000| ≤ 2 ^ (-19 : Int) ∧
      seconds limit = Double.assemble (.finite .positive m e hc.pos) := by
  have hposQ : (1 : ℚ) ≤ n := by exact_mod_cast hpos
  have hspanQ : (n : ℚ) ≤ 9223372036854 := by exact_mod_cast hspan
  obtain ⟨top, hbinade⟩ := exists_inBinade (show (0 : ℚ) < n / 1000 by positivity)
  have hlow : -10 < top := by
    apply lt_of_zpow_lt
    refine lt_of_lt_of_le ?_ (le_of_lt hbinade.2)
    rw [lt_div_iff₀ (by norm_num)]
    norm_num
    linarith
  have hhigh : top - 1 < 34 := by
    apply lt_of_zpow_lt
    refine lt_of_le_of_lt hbinade.1 ?_
    rw [div_lt_iff₀ (by norm_num)]
    norm_num
    linarith
  obtain ⟨m, e, hc, hfull, he, hrounds⟩ := exists_rounds hbinade (by omega) (by omega)
  refine ⟨m, e, hc, hfull, by omega, ?_, ?_⟩
  · calc |(m : ℚ) * 2 ^ e - n / 1000| ≤ 2 ^ e / 2 := hrounds.near
      _ ≤ 2 ^ (-18 : Int) / 2 := by
        gcongr
        · norm_num
        · omega
      _ = 2 ^ (-19 : Int) := by norm_num
  · have hseconds : seconds limit = Float.ofNat n / Float.ofNat 1000 := by
      rw [seconds, hn]
      rfl
    rw [hseconds]
    refine Double.div_eq_assemble (Double.isExactly_ofNat hpos (by omega)) ?_ hc hrounds
    exact Double.isExactly_ofNat (by norm_num) (by norm_num)

/-- A number of thousandths, written with three places after the point. -/
def thousandths (n : Nat) : Bytes := Integer.ofNat (n / 1000) ++ Ascii.dot :: Layout.padded 3 (n % 1000)

theorem thousandths_eq (n : Nat) : Layout.withPlaces 3 n = thousandths n := Layout.withPlaces_eq (by decide) n

theorem fixed_seconds {limit : Int64} {n : Nat} (hn : limit.toInt = n) (hpos : 1 ≤ n) (hspan : n ≤ 9223372036854) :
    Layout.fixed 3 (seconds limit) = thousandths n := by
  obtain ⟨m, e, hc, -, -, hnear, hseconds⟩ := exists_seconds hn hpos hspan
  rw [← thousandths_eq, hseconds]
  refine Layout.fixed_of_near (Double.ofFloat_assemble hc false) ?_
  rw [abs_le] at hnear
  rw [abs_lt]
  norm_num at hnear ⊢
  constructor <;> linarith

/-- Doubling is exact, so the error only doubles as well. -/
theorem fixed_seconds_twice {limit : Int64} {n : Nat} (hn : limit.toInt = n) (hpos : 1 ≤ n) (hspan : n ≤ 9223372036854) :
    Layout.fixed 3 (seconds limit * 2) = thousandths (2 * n) := by
  obtain ⟨m, e, hc, hfull, he, hnear, hseconds⟩ := exists_seconds hn hpos hspan
  have hlow := hc.low
  have hc' : IsCanonical m (e + 1) := ⟨hc.pos, hc.lt, by omega, by omega, fun hsmall => by omega⟩
  have hdouble : (m : ℚ) * 2 ^ (e + 1) = m * 2 ^ e * 2 := by
    rw [zpow_add₀ (by norm_num), zpow_one, mul_assoc]
  have htwice : seconds limit * 2 = Double.assemble (.finite .positive m (e + 1) hc'.pos) := by
    refine Double.mul_eq_assemble ⟨m, e, hc, hfull, rfl, hseconds⟩ (Double.isExactly_ofNat (n := 2) (by norm_num) (by norm_num))
      hc' ?_
    push_cast
    rw [← hdouble]
    exact rounds_self m (e + 1)
  rw [← thousandths_eq, htwice]
  refine Layout.fixed_of_near (Double.ofFloat_assemble hc' false) ?_
  rw [abs_le] at hnear
  rw [abs_lt, hdouble]
  push_cast
  norm_num at hnear ⊢
  constructor <;> linarith

/-- Three places can be read back. -/
theorem thousandths_inj {a b : Nat} (h : thousandths a = thousandths b) : a = b := by
  have hcut : ∀ n, Bytes.cut Ascii.dot (thousandths n) = some (Integer.ofNat (n / 1000), Layout.padded 3 (n % 1000)) := by
    intro n
    refine Bytes.cut_append (fun hmem => ?_) _
    exact absurd (Integer.isDigits_ofNat _ _ hmem) (by decide)
  have hpadded : ∀ n, digitsValue (Layout.padded 3 n) = n := by
    intro n
    rw [Layout.padded, digitsValue_append, digitsValue_replicate_zero, Integer.digitsValue_ofNat, Nat.zero_mul,
      Nat.zero_add]
  have hparts := hcut a
  rw [h, hcut b, Option.some.injEq, Prod.mk.injEq] at hparts
  have hwhole := congrArg digitsValue hparts.1
  have hplaces := congrArg digitsValue hparts.2
  rw [Integer.digitsValue_ofNat, Integer.digitsValue_ofNat] at hwhole
  rw [hpadded, hpadded] at hplaces
  omega

theorem valuesOf_time {req : RunRequest} (hpos : 1 ≤ req.timeLimitMs.toInt)
    (hspan : req.timeLimitMs.toInt ≤ 9223372036854) (box : Bytes) (files : Files) :
    valuesOf (utf8 "--time=") (optionsOf (runWords box req files)) = [thousandths req.timeLimitMs.toInt.toNat] ∧
    valuesOf (utf8 "--wall-time=") (optionsOf (runWords box req files)) =
      [thousandths (2 * req.timeLimitMs.toInt.toNat)] := by
  have hbinds : 0 < req.timeLimitMs := by
    rw [Int64.lt_iff_toInt_lt, Int64.toInt_zero]
    omega
  have hn : req.timeLimitMs.toInt = req.timeLimitMs.toInt.toNat := by omega
  constructor
  · rw [show utf8 "--time=" = Switch.time.text from rfl, valuesOf_runWords, Switch.value?, if_pos hbinds,
      fixed_seconds hn (by omega) (by omega), Option.toList_some]
  · rw [show utf8 "--wall-time=" = Switch.wallTime.text from rfl, valuesOf_runWords, Switch.value?, if_pos hbinds,
      fixed_seconds_twice hn (by omega) (by omega), Option.toList_some]

/-- A time limit of one millisecond up to the longest span of time is given to the sandbox in seconds with three places
after the point, exactly, and as wall time twice the limit. Two such limits with the same text for either are the same. -/
theorem limit_texts_exact (box : Bytes) (req : RunRequest) (files : Files) (hpos : 1 ≤ req.timeLimitMs.toInt)
    (hspan : req.timeLimitMs.toInt ≤ 9223372036854) :
    valuesOf (utf8 "--time=") (optionsOf (runWords box req files)) = [thousandths req.timeLimitMs.toInt.toNat] ∧
    valuesOf (utf8 "--wall-time=") (optionsOf (runWords box req files)) =
      [thousandths (2 * req.timeLimitMs.toInt.toNat)] ∧
    ∀ (box' : Bytes) (req' : RunRequest) (files' : Files),
      1 ≤ req'.timeLimitMs.toInt → req'.timeLimitMs.toInt ≤ 9223372036854 →
      (∃ option ∈ [utf8 "--time=", utf8 "--wall-time="],
        valuesOf option (optionsOf (runWords box' req' files')) = valuesOf option (optionsOf (runWords box req files))) →
      req'.timeLimitMs = req.timeLimitMs := by
  obtain ⟨htime, hwall⟩ := valuesOf_time hpos hspan box files
  refine ⟨htime, hwall, fun box' req' files' hpos' hspan' ⟨option, hoption, hsame⟩ => ?_⟩
  obtain ⟨htime', hwall'⟩ := valuesOf_time hpos' hspan' box' files'
  have hn : req'.timeLimitMs.toInt.toNat = req.timeLimitMs.toInt.toNat := by
    simp only [List.mem_cons, List.not_mem_nil, or_false] at hoption
    rcases hoption with rfl | rfl
    · rw [htime, htime', List.singleton_inj] at hsame
      exact thousandths_inj hsame
    · rw [hwall, hwall', List.singleton_inj] at hsame
      exact Nat.eq_of_mul_eq_mul_left (by decide) (thousandths_inj hsame)
  exact Int64.toInt_inj.mp (by omega)

/-- The longest span of time, whose quotient by a thousand is no double. -/
theorem limit_texts_exact_longest :
    let req : RunRequest := { command := some [utf8 "x"], timeLimitMs := 9223372036854 }
    let files : Files := ⟨[], [], []⟩
    valuesOf (utf8 "--time=") (optionsOf (runWords (utf8 "1") req files)) = [utf8 "9223372036.854"] ∧
    valuesOf (utf8 "--wall-time=") (optionsOf (runWords (utf8 "1") req files)) = [utf8 "18446744073.708"] ∧
    valuesOf (utf8 "--time=") (optionsOf (runWords (utf8 "1") { req with timeLimitMs := 9223372036853 } files)) ≠
      valuesOf (utf8 "--time=") (optionsOf (runWords (utf8 "1") req files)) := by
  intro req files
  have hpos : 1 ≤ req.timeLimitMs.toInt := by decide
  have hspan : req.timeLimitMs.toInt ≤ 9223372036854 := by decide
  obtain ⟨htime, hwall, hinj⟩ := limit_texts_exact (utf8 "1") req files hpos hspan
  refine ⟨htime.trans (by decide +kernel), hwall.trans (by decide +kernel), fun hsame => ?_⟩
  have heq := hinj (utf8 "1") { req with timeLimitMs := 9223372036853 } files (by decide) (by decide)
    ⟨utf8 "--time=", by simp, hsame⟩
  exact absurd heq (by decide)

end Isolate

end Stopwatch
