import Mathlib.Tactic.Common
import Mathlib.Tactic.Ring
import Stopwatch.Number.Integer

/-!
Decimal numerals. A natural number is written without zeros in front, by digits that have it as their value; a machine
integer is read back from its numeral.
-/

namespace Stopwatch

/-- Digits throughout. -/
def IsDigits (s : Bytes) : Prop := ∀ b ∈ s, Ascii.isDigit b = true

/-- The number that digits stand for. -/
def digitsValue (s : Bytes) : Nat := s.foldl (fun n b => n * 10 + (b.toNat - 0x30)) 0

theorem isDigits_append {s t : Bytes} : IsDigits (s ++ t) ↔ IsDigits s ∧ IsDigits t := List.forall_mem_append

theorem isDigit_eq_true_iff {b : UInt8} : Ascii.isDigit b = true ↔ 0x30 ≤ b.toNat ∧ b.toNat ≤ 0x39 := by
  simp [Ascii.isDigit, UInt8.le_iff_toNat_le]

/-- Digits behind others. -/
theorem foldl_digits (s : Bytes) (n : Nat) :
    s.foldl (fun n b => n * 10 + (b.toNat - 0x30)) n = n * 10 ^ s.length + digitsValue s := by
  induction s generalizing n with
  | nil => simp [digitsValue]
  | cons b s ih =>
    rw [digitsValue, List.foldl_cons, List.foldl_cons, ih, ih (0 * 10 + _), List.length_cons]
    ring

theorem digitsValue_append (s t : Bytes) : digitsValue (s ++ t) = digitsValue s * 10 ^ t.length + digitsValue t := by
  rw [digitsValue, List.foldl_append, foldl_digits]
  rfl

theorem digitsValue_cons (b : UInt8) (s : Bytes) :
    digitsValue (b :: s) = (b.toNat - 0x30) * 10 ^ s.length + digitsValue s := by
  rw [digitsValue, List.foldl_cons, foldl_digits, Nat.zero_mul, Nat.zero_add]

theorem digitsValue_lt {s : Bytes} (h : IsDigits s) : digitsValue s < 10 ^ s.length := by
  induction s with
  | nil => exact Nat.one_pos
  | cons b s ih =>
    obtain ⟨hb, hs⟩ := List.forall_mem_cons.mp h
    have hdigit := isDigit_eq_true_iff.mp hb
    calc digitsValue (b :: s) = (b.toNat - 0x30) * 10 ^ s.length + digitsValue s := digitsValue_cons b s
      _ < (b.toNat - 0x30) * 10 ^ s.length + 10 ^ s.length := Nat.add_lt_add_left (ih hs) _
      _ = (b.toNat - 0x30 + 1) * 10 ^ s.length := by ring
      _ ≤ 10 * 10 ^ s.length := Nat.mul_le_mul_right _ (by omega)
      _ = 10 ^ (b :: s).length := (Nat.pow_succ').symm

/-- One more digit behind a number, and the digits behind that. -/
theorem digitsValue_step (n : Nat) (b : UInt8) (s : Bytes) :
    n * 10 ^ (b :: s).length + digitsValue (b :: s) = (n * 10 + (b.toNat - 0x30)) * 10 ^ s.length + digitsValue s := by
  rw [← foldl_digits, List.foldl_cons, foldl_digits]

theorem pow_le_digitsValue {b : UInt8} (hb : Ascii.isDigit b = true) (hne : b ≠ Ascii.zero) (s : Bytes) :
    10 ^ s.length ≤ digitsValue (b :: s) := by
  have hdigit := isDigit_eq_true_iff.mp hb
  have hzero : b.toNat ≠ 0x30 := fun heq => hne (UInt8.toNat_inj.mp heq)
  rw [digitsValue_cons]
  exact le_trans (Nat.le_mul_of_pos_left _ (by omega)) (Nat.le_add_right _ _)

theorem isDigits_replicate_zero (k : Nat) : IsDigits (List.replicate k Ascii.zero) := by
  intro b hb
  rw [List.eq_of_mem_replicate hb]
  rfl

theorem digitsValue_replicate_zero (k : Nat) : digitsValue (List.replicate k Ascii.zero) = 0 := by
  induction k with
  | zero => rfl
  | succ k ih =>
    rw [List.replicate_succ', digitsValue_append, ih]
    rfl

theorem digitValue?_of_isDigit {b : UInt8} (h : Ascii.isDigit b = true) :
    Ascii.digitValue? b = some (b.toNat - 0x30) := by
  simp [Ascii.digitValue?, h]

namespace Integer

/-! ### Natural numbers -/

theorem toNat_digit {n : Nat} (h : n < 10) : (digit n).toNat = 0x30 + n := by
  simp [digit, Nat.toUInt8]
  omega

theorem isDigit_digit {n : Nat} (h : n < 10) : Ascii.isDigit (digit n) = true := by
  rw [isDigit_eq_true_iff, toNat_digit h]
  omega

theorem writeDigits_append (fuel n : Nat) (after : Bytes) :
    writeDigits fuel n after = writeDigits fuel n [] ++ after := by
  induction fuel generalizing n after with
  | zero => rfl
  | succ fuel ih =>
    rw [writeDigits, writeDigits]
    split
    · rfl
    · rw [ih, ih _ [_]]
      simp

theorem writeDigits_fuel {fuel fuel' n : Nat} (h : n < fuel) (h' : n < fuel') (after : Bytes) :
    writeDigits fuel n after = writeDigits fuel' n after := by
  induction fuel generalizing n fuel' after with
  | zero => omega
  | succ fuel ih =>
    obtain ⟨fuel', rfl⟩ : ∃ k, fuel' = k + 1 := ⟨fuel' - 1, by omega⟩
    rw [writeDigits, writeDigits]
    split
    · rfl
    · exact ih (by omega) (by omega) _

theorem ofNat_of_lt {n : Nat} (h : n < 10) : ofNat n = [digit n] := by
  rw [ofNat, writeDigits, if_pos h]

/-- The last digit comes off the end. -/
theorem ofNat_of_ge {n : Nat} (h : 10 ≤ n) : ofNat n = ofNat (n / 10) ++ [digit (n % 10)] := by
  have hfuel : writeDigits n (n / 10) [] = ofNat (n / 10) := writeDigits_fuel (by omega) (by omega) []
  rw [ofNat, writeDigits, if_neg (by omega), writeDigits_append, hfuel]

theorem ofNat_ne_nil (n : Nat) : ofNat n ≠ [] := by
  rcases Nat.lt_or_ge n 10 with h | h
  · simp [ofNat_of_lt h]
  · simp [ofNat_of_ge h]

theorem isDigits_ofNat (n : Nat) : IsDigits (ofNat n) := by
  induction n using Nat.strongRecOn with
  | ind n ih =>
    rcases Nat.lt_or_ge n 10 with h | h
    · simpa [ofNat_of_lt h, IsDigits] using isDigit_digit h
    · rw [ofNat_of_ge h, isDigits_append]
      exact ⟨ih (n / 10) (by omega), by simpa [IsDigits] using isDigit_digit (by omega)⟩

theorem digitsValue_digit {n : Nat} (h : n < 10) : digitsValue [digit n] = n := by
  simp [digitsValue, toNat_digit h]

theorem digitsValue_ofNat (n : Nat) : digitsValue (ofNat n) = n := by
  induction n using Nat.strongRecOn with
  | ind n ih =>
    rcases Nat.lt_or_ge n 10 with h | h
    · rw [ofNat_of_lt h, digitsValue_digit h]
    · rw [ofNat_of_ge h, digitsValue_append, ih _ (by omega), digitsValue_digit (by omega), List.length_singleton]
      omega

/-- No zeros in front. -/
theorem exists_cons_ofNat {n : Nat} (h : n ≠ 0) :
    ∃ b rest, ofNat n = b :: rest ∧ Ascii.isDigit b = true ∧ b ≠ Ascii.zero := by
  induction n using Nat.strongRecOn with
  | ind n ih =>
    rcases Nat.lt_or_ge n 10 with hn | hn
    · refine ⟨digit n, [], ofNat_of_lt hn, isDigit_digit hn, fun heq => ?_⟩
      have hnat := congrArg UInt8.toNat heq
      rw [toNat_digit hn, show Ascii.zero.toNat = 0x30 from rfl] at hnat
      omega
    · obtain ⟨b, rest, hcons, hb⟩ := ih (n / 10) (by omega) (by omega)
      exact ⟨b, rest ++ [digit (n % 10)], by rw [ofNat_of_ge hn, hcons, List.cons_append], hb⟩

/-- A number has as many digits as it takes. -/
theorem lt_pow_length_ofNat (n : Nat) : n < 10 ^ (ofNat n).length := by
  have hlt := digitsValue_lt (isDigits_ofNat n)
  rwa [digitsValue_ofNat] at hlt

theorem pow_le_of_length_ofNat {n k : Nat} (h : n ≠ 0) (hk : (ofNat n).length = k + 1) : 10 ^ k ≤ n := by
  obtain ⟨b, rest, hcons, hb, hne⟩ := exists_cons_ofNat h
  have hle := pow_le_digitsValue hb hne rest
  rw [hcons, List.length_cons] at hk
  rwa [← hcons, digitsValue_ofNat, Nat.succ.inj hk] at hle

/-! ### Reading -/

theorem readDigits_of_isDigits {s : Bytes} (h : IsDigits s) {n : Nat} (hlt : n * 10 ^ s.length + digitsValue s < 2 ^ 64) :
    readDigits 10 false s n = .ok (n * 10 ^ s.length + digitsValue s) := by
  induction s generalizing n with
  | nil => simp [readDigits, digitsValue]
  | cons b s ih =>
    obtain ⟨hb, hs⟩ := List.forall_mem_cons.mp h
    rw [digitsValue_step] at hlt ⊢
    have hsmall : n * 10 + (b.toNat - 0x30) < 2 ^ 64 := by
      have hpow : 0 < 10 ^ s.length := Nat.pow_pos (by decide)
      have := Nat.le_mul_of_pos_right (n * 10 + (b.toNat - 0x30)) hpow
      omega
    have hdigit := isDigit_eq_true_iff.mp hb
    rw [readDigits]
    simp only [Bool.false_and, Bool.false_eq_true, if_false, digitValue?_of_isDigit hb]
    rw [if_neg (by omega), if_neg (by simpa using hsmall)]
    exact ih hs hlt

theorem magnitude_ofNat {n : Nat} (h : n < 2 ^ 64) : magnitude 10 (ofNat n) = .ok n := by
  have hread := readDigits_of_isDigits (isDigits_ofNat n) (n := 0) (by simpa [digitsValue_ofNat] using h)
  simpa [magnitude, ofNat_ne_nil, digitsValue_ofNat] using hread

/-- A text without a sign. -/
theorem unsigned_of_isDigit {b : UInt8} (h : Ascii.isDigit b = true) (s : Bytes) : unsigned (b :: s) = b :: s := by
  have hb := isDigit_eq_true_iff.mp h
  unfold unsigned
  split
  · next heq => cases heq; exact absurd hb.1 (by decide)
  · next heq => cases heq; exact absurd hb.1 (by decide)
  · rfl

theorem unsigned_of_isDigits {s : Bytes} (h : IsDigits s) : unsigned s = s := by
  rcases s with _ | ⟨b, s⟩
  · rfl
  · exact unsigned_of_isDigit (h b (by simp)) s

theorem head?_ne_minus_of_isDigits {s : Bytes} (h : IsDigits s) : s.head? ≠ some Ascii.minus := by
  intro hhead
  exact absurd (h _ (List.mem_of_mem_head? hhead)) (by decide)

/-- A machine integer is read back from its numeral. -/
theorem read_ofInt64 (n : Int64) : read (ofInt64 n) = .ok n := by
  have hlo := n.le_toInt
  have hhi := n.toInt_lt
  have hback : Int64.ofInt n.toInt = n := Int64.ofInt_toInt n
  rw [read, ofInt64]
  cases hn : n.toInt with
  | ofNat k =>
    rw [hn] at hhi hback
    have hk : k < 2 ^ 63 := by simpa using hhi
    rw [ofInt, signed, unsigned_of_isDigits (isDigits_ofNat k), magnitude_ofNat (by omega)]
    simp only [head?_ne_minus_of_isDigits (isDigits_ofNat k), if_false]
    rw [if_neg (by simpa using hk)]
    simpa [Except.mapError] using hback
  | negSucc k =>
    rw [hn] at hlo hback
    have hk : k + 1 ≤ 2 ^ 63 := by omega
    have hunsigned : unsigned (Ascii.minus :: ofNat (k + 1)) = ofNat (k + 1) := rfl
    rw [ofInt, signed, hunsigned, magnitude_ofNat (by omega)]
    simp only [List.head?_cons, if_true]
    rw [if_neg (by simpa using hk)]
    simpa [Except.mapError, Int.negSucc_eq] using hback

end Integer

end Stopwatch
