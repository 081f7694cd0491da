import Stopwatch.Kernel.Basic
import Stopwatch.Proofs.Drafts
import Stopwatch.Proofs.Fibonacci

/-!
What the Fibonacci kernel takes and prints. Its one word is an optional sign and digits, with any number of zeros in
front; its line is the numeral of the Fibonacci number without zeros in front. Integers outside the sequence are refused
by the sequence, all other words by the reader.
-/

namespace Stopwatch

/-! ### Signed numerals -/

/-- An optional sign and digits, with the integer that they stand for. -/
inductive Denotes : Bytes → Int → Prop
  | unsigned {digits : Bytes} (isDigits : IsDigits digits) (nonempty : digits ≠ []) :
      Denotes digits (digitsValue digits)
  | plus {digits : Bytes} (isDigits : IsDigits digits) (nonempty : digits ≠ []) :
      Denotes (Ascii.plus :: digits) (digitsValue digits)
  | minus {digits : Bytes} (isDigits : IsDigits digits) (nonempty : digits ≠ []) :
      Denotes (Ascii.minus :: digits) (-digitsValue digits)

theorem literalValue_of_isDigits {s : Bytes} (h : IsDigits s) : literalValue s = digitsValue s := by
  rw [literalValue, if_neg (Integer.head?_ne_minus_of_isDigits h), Integer.unsigned_of_isDigits h]

theorem denotes_iff {s : Bytes} {n : Int} :
    Denotes s n ↔ IsDigits (Integer.unsigned s) ∧ Integer.unsigned s ≠ [] ∧ n = literalValue s := by
  constructor
  · rintro (⟨hdigits, hne⟩ | ⟨hdigits, hne⟩ | ⟨hdigits, hne⟩)
    · rw [literalValue_of_isDigits hdigits, Integer.unsigned_of_isDigits hdigits]
      exact ⟨hdigits, hne, rfl⟩
    · exact ⟨hdigits, hne, rfl⟩
    · exact ⟨hdigits, hne, rfl⟩
  · rintro ⟨hdigits, hne, rfl⟩
    unfold Integer.unsigned at hdigits
    split at hdigits
    · exact .minus hdigits hne
    · exact .plus hdigits hne
    · rw [Integer.unsigned_of_isDigits hdigits] at hne
      rw [literalValue_of_isDigits hdigits]
      exact .unsigned hdigits hne

instance (s : Bytes) : Decidable (IsDigits s) := inferInstanceAs (Decidable (∀ b ∈ s, _))

instance (s : Bytes) (n : Int) : Decidable (Denotes s n) := decidable_of_iff _ denotes_iff.symm

/-- A numeral stands for one integer. -/
theorem Denotes.unique {s : Bytes} {n m : Int} (hn : Denotes s n) (hm : Denotes s m) : n = m :=
  (denotes_iff.mp hn).2.2.trans (denotes_iff.mp hm).2.2.symm

namespace Integer

/-- Exactly the numerals of machine integers are read, each as the integer it stands for. -/
theorem read_eq_ok_iff {s : Bytes} {n : Int64} : read s = .ok n ↔ Denotes s n.toInt := by
  have hoption : read s = .ok n ↔ (read s).toOption = some n := by
    cases read s <;> simp [Except.toOption]
  rw [hoption, toOption_read_eq_some_iff, denotes_iff]
  constructor
  · rintro ⟨⟨hdigits, hne, hlower, hupper⟩, rfl⟩
    exact ⟨hdigits, hne, Int64.toInt_ofInt_of_le hlower hupper⟩
  · rintro ⟨hdigits, hne, hvalue⟩
    refine ⟨⟨hdigits, hne, ?_, ?_⟩, ?_⟩
    · rw [← hvalue]
      exact n.le_toInt
    · rw [← hvalue]
      exact n.toInt_lt
    · rw [← hvalue, Int64.ofInt_toInt]

/-- The machine integer of a numeral that is one. -/
theorem exists_read_of_denotes {s : Bytes} {n : Int} (h : Denotes s n) (hlower : -2 ^ 63 ≤ n) (hupper : n < 2 ^ 63) :
    ∃ m : Int64, m.toInt = n ∧ read s = .ok m := by
  have hexact : (Int64.ofInt n).toInt = n := Int64.toInt_ofInt_of_le hlower hupper
  exact ⟨Int64.ofInt n, hexact, read_eq_ok_iff.mpr (hexact.symm ▸ h)⟩

theorem digit_toNat_sub {b : UInt8} (h : Ascii.isDigit b = true) : digit (b.toNat - 0x30) = b := by
  have hb := isDigit_eq_true_iff.mp h
  rw [digit, Nat.add_sub_cancel' hb.1, Utf8.toUInt8_toNat]

/-- Digits without zeros in front are the numeral of their value. -/
theorem eq_ofNat_of_head?_ne_zero {s : Bytes} (hdigits : IsDigits s) (hne : s ≠ [])
    (hhead : s.head? ≠ some Ascii.zero) : s = ofNat (digitsValue s) := by
  induction s using List.reverseRecOn with
  | nil => exact absurd rfl hne
  | append_singleton t b ih =>
    obtain ⟨ht, hb⟩ := isDigits_append.mp hdigits
    have hdigit : Ascii.isDigit b = true := hb b (List.mem_singleton_self b)
    have hbound := isDigit_eq_true_iff.mp hdigit
    have hlast : digitsValue [b] = b.toNat - 0x30 := by simp [digitsValue]
    rcases t with _ | ⟨a, t⟩
    · rw [List.nil_append, hlast, ofNat_of_lt (by omega), digit_toNat_sub hdigit]
    · have hfront : 1 ≤ digitsValue (a :: t) := by
        have hpow := pow_le_digitsValue (ht a List.mem_cons_self) (fun heq => hhead (by rw [heq]; rfl)) t
        exact le_trans (Nat.one_le_pow _ _ (by decide)) hpow
      have hrest := ih ht (List.cons_ne_nil _ _) hhead
      have hvalue : digitsValue (a :: t ++ [b]) = digitsValue (a :: t) * 10 + (b.toNat - 0x30) := by
        rw [digitsValue_append, hlast, List.length_singleton, pow_one]
      have hfront : (digitsValue (a :: t) * 10 + (b.toNat - 0x30)) / 10 = digitsValue (a :: t) := by omega
      have hback : (digitsValue (a :: t) * 10 + (b.toNat - 0x30)) % 10 = b.toNat - 0x30 := by omega
      rw [hvalue, ofNat_of_ge (by omega), hfront, ← hrest, hback, digit_toNat_sub hdigit]

/-- A whole number without zeros in front is the numeral that is written for it. -/
theorem eq_ofNat_of_isWhole {s : Bytes} (h : Wire.IsWhole s) : s = ofNat (digitsValue s) := by
  rcases h with rfl | ⟨hdigits, hne, hhead⟩
  · rfl
  · exact eq_ofNat_of_head?_ne_zero hdigits hne hhead

end Integer

namespace Kernel

/-! ### The words of the kernel -/

/-- Once its word is read, the kernel prints the value, or passes on why there is none. -/
theorem fib_of_read {text : Bytes} {n : Int64} (h : Integer.read text = .ok n) :
    fib [text] =
      ((Fibonacci.value n).mapError Error.fibonacci).map fun v => Integer.ofInt64 v ++ [Ascii.newline] := by
  simp only [fib, h]
  cases Fibonacci.value n <;> rfl

theorem fib_of_not_read {text : Bytes} (h : ∀ n, Integer.read text ≠ .ok n) :
    ∃ reason, fib [text] = .error (.badIndex text reason) := by
  cases hread : Integer.read text with
  | error reason => exact ⟨reason, by rw [fib, hread]⟩
  | ok n => exact absurd hread (h n)

theorem fib_of_length_ne_one {args : List Bytes} (h : args.length ≠ 1) : fib args = .error .usage := by
  rcases args with _ | ⟨a, _ | ⟨b, rest⟩⟩
  · rfl
  · exact absurd rfl h
  · rfl

/-- What is printed at an index of the sequence. -/
theorem fib_of_le {text : Bytes} {n : Nat} (h : Denotes text n) (hn : n ≤ 92) :
    fib [text] = .ok (Integer.ofNat (Nat.fib n) ++ [Ascii.newline]) := by
  obtain ⟨m, hm, hread⟩ := Integer.exists_read_of_denotes h (by omega) (by omega)
  have hnonneg : 0 ≤ m := Int64.le_iff_toInt_le.mpr (by rw [hm]; exact Int.natCast_nonneg n)
  have hindex : m.toNatClampNeg = n := by
    have := Fibonacci.toInt_eq_toNatClampNeg hnonneg
    omega
  have hvalue : Fibonacci.value m = .ok (Fibonacci.naive n) :=
    Fibonacci.value_eq_ok_iff.mpr ⟨hnonneg, by omega, by rw [hindex]⟩
  have hnumber := Fibonacci.toInt_naive_of_le hn
  rw [fib_of_read hread, hvalue, Except.mapError, Except.map, Integer.ofInt64, hnumber]
  rfl

/-- An index before the sequence. -/
theorem fib_of_neg {text : Bytes} {n : Int} (h : Denotes text n) (hlower : -2 ^ 63 ≤ n) (hneg : n < 0) :
    ∃ m : Int64, m.toInt = n ∧ fib [text] = .error (.fibonacci (.negative m)) := by
  obtain ⟨m, hm, hread⟩ := Integer.exists_read_of_denotes h hlower (by omega)
  have hmneg : m < 0 := Int64.lt_iff_toInt_lt.mpr (by rw [hm]; exact hneg)
  refine ⟨m, hm, ?_⟩
  rw [fib_of_read hread, Fibonacci.value, if_pos hmneg]
  rfl

/-- An index whose number does not fit. -/
theorem fib_of_gt {text : Bytes} {n : Int} (h : Denotes text n) (hlarge : 92 < n) (hupper : n < 2 ^ 63) :
    ∃ m : Int64, m.toInt = n ∧ fib [text] = .error (.fibonacci (.tooLarge m)) := by
  obtain ⟨m, hm, hread⟩ := Integer.exists_read_of_denotes h (by omega) hupper
  have hmnonneg : ¬ m < 0 := by
    intro hneg
    have hlt : m.toInt < 0 := Int64.lt_iff_toInt_lt.mp hneg
    omega
  have hmlarge : Fibonacci.maxIndex < m := Int64.lt_iff_toInt_lt.mpr (by rw [hm]; exact hlarge)
  refine ⟨m, hm, ?_⟩
  rw [fib_of_read hread, Fibonacci.value, if_neg hmnonneg, if_pos hmlarge]
  rfl

/-- What stands for no machine integer is refused before the sequence is asked. -/
theorem fib_of_not_denotes {args : List Bytes}
    (h : ∀ text n, args = [text] → Denotes text n → n < -2 ^ 63 ∨ 2 ^ 63 ≤ n) :
    fib args = .error .usage ∨ ∃ text reason, args = [text] ∧ fib args = .error (.badIndex text reason) := by
  by_cases hlength : args.length = 1
  · obtain ⟨text, rfl⟩ := List.length_eq_one_iff.mp hlength
    have hunread : ∀ n, Integer.read text ≠ .ok n := by
      intro n hread
      have hrange := h text n.toInt rfl (Integer.read_eq_ok_iff.mp hread)
      have hlow := n.le_toInt
      have hhigh := n.toInt_lt
      omega
    obtain ⟨reason, hfib⟩ := fib_of_not_read hunread
    exact .inr ⟨text, reason, rfl, hfib⟩
  · exact .inl (fib_of_length_ne_one hlength)

/-- Whatever is printed belongs to an index of the sequence. -/
theorem exists_index_of_fib {args : List Bytes} {out : Bytes} (h : fib args = .ok out) :
    ∃ text, ∃ n : Nat, args = [text] ∧ Denotes text n ∧ n ≤ 92 ∧
      out = Integer.ofNat (Nat.fib n) ++ [Ascii.newline] := by
  by_cases hindex : ∃ text n, args = [text] ∧ Denotes text n ∧ -2 ^ 63 ≤ n ∧ n < 2 ^ 63
  · obtain ⟨text, n, rfl, hn, hlower, hupper⟩ := hindex
    rcases Int.lt_or_le n 0 with hneg | hnonneg
    · obtain ⟨m, -, hfib⟩ := fib_of_neg hn hlower hneg
      rw [hfib] at h
      cases h
    · rcases Int.lt_or_le 92 n with hlarge | hle
      · obtain ⟨m, -, hfib⟩ := fib_of_gt hn hlarge hupper
        rw [hfib] at h
        cases h
      · obtain ⟨k, rfl⟩ := Int.eq_ofNat_of_zero_le hnonneg
        rw [fib_of_le hn (by omega)] at h
        cases h
        exact ⟨text, k, rfl, hn, by omega, rfl⟩
  · have hnone : ∀ text n, args = [text] → Denotes text n → n < -2 ^ 63 ∨ 2 ^ 63 ≤ n := by
      intro text n hargs hn
      by_contra hrange
      exact hindex ⟨text, n, hargs, hn, by omega, by omega⟩
    rcases fib_of_not_denotes hnone with hfib | ⟨text, reason, -, hfib⟩
    · rw [hfib] at h
      cases h
    · rw [hfib] at h
      cases h

/-- The kernel succeeds exactly on one word that is an optional sign and digits for an integer from 0 to 92, and its line
is then the Fibonacci number in digits without zeros in front, and a line feed. So the line reads back as that number,
and how the index is spelled makes no difference. A machine integer below the sequence is refused as an invalid argument,
one behind it as an overflow, and everything else for the number of words or by the reader. -/
theorem fib_line_exact :
    (∀ args out, fib args = .ok out ↔ ∃ text line, ∃ n : Nat, args = [text] ∧ Denotes text n ∧ n ≤ 92 ∧
      Wire.IsWhole line ∧ digitsValue line = Nat.fib n ∧ out = line ++ [Ascii.newline]) ∧
    (∀ text out (n : Nat), Denotes text n → fib [text] = .ok out →
      ∃ v : Int64, Integer.read out.dropLast = .ok v ∧ v.toInt = Nat.fib n) ∧
    (∀ text text' n, Denotes text n → Denotes text' n → -2 ^ 63 ≤ n → n < 2 ^ 63 → fib [text] = fib [text']) ∧
    (∀ text n, Denotes text n → -2 ^ 63 ≤ n → n < 0 →
      ∃ reason : Fibonacci.Error, fib [text] = .error (.fibonacci reason) ∧ reason.kind = utf8 "INVALID_ARGUMENT") ∧
    (∀ text n, Denotes text n → 92 < n → n < 2 ^ 63 →
      ∃ reason : Fibonacci.Error, fib [text] = .error (.fibonacci reason) ∧ reason.kind = utf8 "OVERFLOW") ∧
    ∀ args, (∀ text n, args = [text] → Denotes text n → n < -2 ^ 63 ∨ 2 ^ 63 ≤ n) →
      fib args = .error .usage ∨ ∃ text reason, args = [text] ∧ fib args = .error (.badIndex text reason) := by
  refine ⟨?_, ?_, ?_, ?_, ?_, ?_⟩
  · intro args out
    constructor
    · intro h
      obtain ⟨text, n, rfl, hn, hle, rfl⟩ := exists_index_of_fib h
      exact ⟨text, _, n, rfl, hn, hle, Wire.isWhole_ofNat _, Integer.digitsValue_ofNat _, rfl⟩
    · rintro ⟨text, line, n, rfl, hn, hle, hline, hvalue, rfl⟩
      rw [fib_of_le hn hle, Integer.eq_ofNat_of_isWhole hline, hvalue]
  · intro text out n hn h
    obtain ⟨text', m, hargs, hm, hle, rfl⟩ := exists_index_of_fib h
    cases hargs
    obtain rfl : n = m := Int.ofNat_inj.mp (hn.unique hm)
    have hfits := Fibonacci.fib_le_iff.mpr hle
    have hline : Denotes (Integer.ofNat (Nat.fib n)) (Nat.fib n) := by
      simpa only [Integer.digitsValue_ofNat] using
        Denotes.unsigned (Integer.isDigits_ofNat (Nat.fib n)) (Integer.ofNat_ne_nil (Nat.fib n))
    obtain ⟨v, hv, hread⟩ := Integer.exists_read_of_denotes hline (by omega) (by omega)
    exact ⟨v, by rw [List.dropLast_concat, hread], hv⟩
  · intro text text' n hn hn' hlower hupper
    obtain ⟨m, hm, hread⟩ := Integer.exists_read_of_denotes hn hlower hupper
    rw [fib_of_read hread, fib_of_read (Integer.read_eq_ok_iff.mpr (hm.symm ▸ hn'))]
  · intro text n hn hlower hneg
    obtain ⟨m, -, hfib⟩ := fib_of_neg hn hlower hneg
    exact ⟨.negative m, hfib, rfl⟩
  · intro text n hn hlarge hupper
    obtain ⟨m, -, hfib⟩ := fib_of_gt hn hlarge hupper
    exact ⟨.tooLarge m, hfib, rfl⟩
  · intro args h
    exact fib_of_not_denotes h

/-- A sign and zeros in front change nothing, zero has a sign as well, the neighbours of the range are refused, and so is
an underscore. -/
theorem fib_line_exact_odd_spellings :
    fib [utf8 "+007"] = fib [utf8 "7"] ∧ fib [utf8 "-0"] = .ok (utf8 "0\n") ∧
    (∃ v : Int64, Integer.read (utf8 "13\n").dropLast = .ok v ∧ v.toInt = 13) ∧
    (∃ reason : Fibonacci.Error, fib [utf8 "-1"] = .error (.fibonacci reason) ∧ reason.kind = utf8 "INVALID_ARGUMENT") ∧
    (∃ reason : Fibonacci.Error, fib [utf8 "093"] = .error (.fibonacci reason) ∧ reason.kind = utf8 "OVERFLOW") ∧
    ∃ text reason, [utf8 "1_0"] = [text] ∧ fib [utf8 "1_0"] = .error (.badIndex text reason) := by
  obtain ⟨haccepts, hback, hspelling, hnegative, hlarge, hother⟩ := fib_line_exact
  refine ⟨?_, ?_, ?_, ?_, ?_, ?_⟩
  · exact hspelling _ _ 7 (by decide +kernel) (by decide +kernel) (by decide) (by decide)
  · exact (haccepts _ _).mpr ⟨utf8 "-0", utf8 "0", 0, rfl, by decide +kernel, by decide, .inl rfl, rfl, rfl⟩
  · refine hback (utf8 "7") _ 7 (by decide +kernel) ((haccepts _ _).mpr ?_)
    exact ⟨utf8 "7", utf8 "13", 7, rfl, by decide +kernel, by decide, .inr (by decide +kernel), rfl, rfl⟩
  · exact hnegative _ (-1) (by decide +kernel) (by decide) (by decide)
  · exact hlarge _ 93 (by decide +kernel) (by decide) (by decide)
  · refine (hother [utf8 "1_0"] fun text n hargs hn => ?_).resolve_left (by decide +kernel)
    cases hargs
    exact absurd (denotes_iff.mp hn).1 (by decide +kernel)

end Kernel

end Stopwatch
