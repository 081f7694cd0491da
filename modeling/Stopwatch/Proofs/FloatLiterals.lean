import Stopwatch.Number.Reader
import Stopwatch.Proofs.Conversion
import Stopwatch.Proofs.Literals
import Stopwatch.Proofs.ShortestDigits
import Stopwatch.Wire.Outgoing

/-!
Literals of doubles. The literal of a finite double is a number literal, and reading it gives the same double: its digits
stand for a number in the interval of the double, and that number is converted back.
-/

namespace Stopwatch

open Rounding

/-! ### Bounds -/

/-- A number that rounds to a double has no digit far before the point. -/
theorem Rounding.Rounds.lt_of_pow_le {x : ℚ} {m : Nat} {e : Int} (hc : IsCanonical m e) (h : Rounds x m e) {a : Int}
    (hx : 10 ^ a ≤ x) : a < 400 := by
  have hpow : (2 : ℚ) ^ (1024 : Int) ≤ 10 ^ (400 : Int) := by
    exact_mod_cast Shortest.two_pow_le (by decide)
  have hlt : (10 : ℚ) ^ a < 10 ^ (400 : Int) := lt_of_le_of_lt hx (lt_of_lt_of_le (h.upper hc) hpow)
  exact (zpow_lt_zpow_iff_right₀ (by norm_num)).mp hlt

/-- A number that rounds to a double has its first digit not far after the point. -/
theorem Rounding.Rounds.lt_of_lt_pow {x : ℚ} {m : Nat} {e : Int} (hc : IsCanonical m e) (h : Rounds x m e) {b : Int}
    (hx : x < 10 ^ b) : -400 < b := by
  have hpow : (10 : ℚ) ^ (-400 : Int) ≤ 2 ^ (-1075 : Int) := by
    rw [zpow_neg, zpow_neg, inv_le_inv₀ (by positivity) (by positivity)]
    exact_mod_cast Shortest.two_pow_le (by decide)
  have hlt : (10 : ℚ) ^ (-400 : Int) < 10 ^ b := lt_of_le_of_lt (le_trans hpow (h.lower hc)) hx
  exact (zpow_lt_zpow_iff_right₀ (by norm_num)).mp hlt

namespace FloatReader

/-- A decimal number within the range of doubles is converted. -/
theorem ofDecimal_eq {m : Nat} {e : Int} (hc : IsCanonical m e) {n : Nat} {power : Int}
    (h : Rounds (n * 10 ^ power) m e) : ofDecimal n power = Double.assemble (.finite .positive m e hc.pos) := by
  have hn := h.ne_zero hc
  obtain ⟨k, hk⟩ := Nat.exists_eq_succ_of_ne_zero (List.length_pos_of_ne_nil (Integer.ofNat_ne_nil n)).ne'
  have hhigh : power + k < 400 := by
    apply h.lt_of_pow_le hc
    have hle : (10 : ℚ) ^ k ≤ n := by exact_mod_cast Integer.pow_le_of_length_ofNat hn hk
    rw [zpow_add₀ (by norm_num), zpow_natCast, mul_comm]
    gcongr
  have hlow : -400 < power + (k + 1 : Nat) := by
    apply h.lt_of_lt_pow hc
    have hlt : (n : ℚ) < 10 ^ (k + 1) := by exact_mod_cast hk ▸ Integer.lt_pow_length_ofNat n
    rw [zpow_add₀ (by norm_num), zpow_natCast, mul_comm]
    gcongr
  rw [ofDecimal]
  simp only [hk]
  rw [if_neg (by simp [hn]; omega), if_neg (by omega)]
  exact Double.ofScientific_eq_assemble hc h

/-! ### Scanning -/

theorem ne_of_isDigit {b c : UInt8} (hb : Ascii.isDigit b = true) (hc : Ascii.isDigit c = false) : b ≠ c := by
  rintro rfl
  exact absurd hb (by rw [hc]; decide)

/-- What ends the digits of a decimal numeral. -/
def Stops (rest : Bytes) : Prop :=
  ∀ b, rest.head? = some b → b ≠ Ascii.underscore ∧ b ≠ Ascii.dot ∧ ∀ d, Ascii.digitValue? b = some d → 10 ≤ d

theorem digits_of_stops {rest : Bytes} (h : Stops rest) (scan : Scan) : digits 10 rest scan = (scan, rest) := by
  cases rest with
  | nil => rfl
  | cons b rest =>
    obtain ⟨hunderscore, hdot, hdigit⟩ := h b rfl
    rw [digits]
    simp only [beq_iff_eq, hunderscore, hdot, if_false]
    split
    · next d hd =>
      rw [if_neg (by have := hdigit d hd; omega)]
    · rfl

/-- A run of digits. -/
theorem digits_append {ds : Bytes} (h : IsDigits ds) (rest : Bytes) (scan : Scan) :
    digits 10 (ds ++ rest) scan = digits 10 rest
      { scan with
        mantissa := scan.mantissa * 10 ^ ds.length + digitsValue ds
        places := if scan.sawDot then scan.places + ds.length else scan.places
        sawDigits := scan.sawDigits || !ds.isEmpty } := by
  induction ds generalizing scan with
  | nil => simp [digitsValue]
  | cons b ds ih =>
    obtain ⟨hb, hds⟩ := List.forall_mem_cons.mp h
    have hdigit := isDigit_eq_true_iff.mp hb
    have hunderscore : b ≠ Ascii.underscore := ne_of_isDigit hb rfl
    have hdot : b ≠ Ascii.dot := ne_of_isDigit hb rfl
    rw [List.cons_append, digits, digitsValue_step]
    simp only [beq_iff_eq, hunderscore, hdot, if_false, digitValue?_of_isDigit hb]
    rw [if_pos (by omega), ih hds]
    cases scan.sawDot <;> simp [Nat.add_assoc, Nat.add_comm 1]

/-- Digits after a point, if there are any. -/
def fraction (ds : Bytes) : Bytes := if ds.isEmpty then [] else Ascii.dot :: ds

/-- A numeral up to its exponent. -/
theorem digits_parts {whole frac rest : Bytes} (hwhole : IsDigits whole) (hne : whole ≠ []) (hfrac : IsDigits frac)
    (hrest : Stops rest) :
    ∃ sawDot, digits 10 (whole ++ fraction frac ++ rest) {} =
      ({ mantissa := digitsValue (whole ++ frac), places := frac.length, sawDot, sawDigits := true }, rest) := by
  have hempty : whole.isEmpty = false := by simpa using hne
  rw [List.append_assoc, digits_append hwhole]
  rcases frac with _ | ⟨d, frac⟩
  · exact ⟨false, by simp [fraction, digits_of_stops hrest, hempty]⟩
  · refine ⟨true, ?_⟩
    have hdot (scan : Scan) (h : scan.sawDot = false) (ds : Bytes) :
        digits 10 (Ascii.dot :: ds) scan = digits 10 ds { scan with sawDot := true } := by
      rw [digits]
      simp [h, Ascii.dot, Ascii.underscore]
    rw [fraction, if_neg (by simp), List.cons_append, hdot _ rfl, digits_append hfrac, digits_of_stops hrest]
    simp [hempty, digitsValue_append]

/-! ### Exponents -/

/-- The digits of an exponent that is not out of range. -/
theorem exponentDigits_eq {ds : Bytes} (h : IsDigits ds) {n : Nat} (hlt : n * 10 ^ ds.length + digitsValue ds < 100000) :
    exponentDigits ds n = (n * 10 ^ ds.length + digitsValue ds, []) := by
  induction ds generalizing n with
  | nil => simp [exponentDigits, digitsValue]
  | cons b ds ih =>
    obtain ⟨hb, hds⟩ := List.forall_mem_cons.mp h
    rw [digitsValue_step] at hlt ⊢
    -- A digit follows, so that the value so far has one digit less than the bound.
    have hsmall : n < 10000 := by
      have hpow : 0 < 10 ^ ds.length := Nat.pow_pos (by decide)
      have := Nat.le_mul_of_pos_right (n * 10 + (b.toNat - 0x30)) hpow
      omega
    rw [exponentDigits, if_pos hb, if_pos hsmall, ih hds hlt]

/-- The digits of an exponent, with zeros in front. -/
theorem isDigits_padded (zeros n : Nat) : IsDigits (List.replicate zeros Ascii.zero ++ Integer.ofNat n) :=
  isDigits_append.mpr ⟨isDigits_replicate_zero _, Integer.isDigits_ofNat _⟩

theorem exponent?_exponentMark {width : Nat} {x : Int} (h : x.natAbs < 100000) :
    ∃ after, Layout.exponentMark width x = 0x65 :: after ∧ exponent? after = some (x, []) := by
  refine ⟨_, rfl, ?_⟩
  set ds := List.replicate (width - (Integer.ofNat x.natAbs).length) Ascii.zero ++ Integer.ofNat x.natAbs with hds
  have hdigits : IsDigits ds := isDigits_padded _ _
  have hvalue : digitsValue ds = x.natAbs := by
    rw [hds, digitsValue_append, digitsValue_replicate_zero, Integer.digitsValue_ofNat]
    omega
  have hread : exponentDigits ds 0 = (x.natAbs, []) := by
    rw [exponentDigits_eq hdigits (by omega), hvalue, Nat.zero_mul, Nat.zero_add]
  obtain ⟨b, rest, hcons⟩ := List.exists_cons_of_ne_nil (show ds ≠ [] by simp [hds, Integer.ofNat_ne_nil])
  have hb : Ascii.isDigit b = true := hdigits b (by simp [hcons])
  have hpart (sign : UInt8) (h : Integer.unsigned (sign :: ds) = ds) :
      exponent? (sign :: ds) = some (if sign = Ascii.minus then -(x.natAbs : Int) else x.natAbs, []) := by
    rw [hcons] at h hread ⊢
    simp [exponent?, h, hb, hread]
  rcases Int.lt_or_le x 0 with hx | hx
  · rw [if_pos hx, hpart _ rfl, if_pos rfl, show -(x.natAbs : Int) = x by omega]
  · rw [if_neg (not_lt.mpr hx), hpart _ rfl, if_neg (by decide), show (x.natAbs : Int) = x by omega]

/-- No exponent, or a mark with one that is not out of range. -/
def IsMark (mark : Bytes) (x : Int) : Prop :=
  mark = [] ∧ x = 0 ∨ ∃ width, mark = Layout.exponentMark width x ∧ x.natAbs < 100000

/-- A text of digits, perhaps with a point among them and an exponent behind them, and the number it stands for. -/
def Spells (s : Bytes) (v : ℚ) : Prop :=
  ∃ whole frac mark x, s = whole ++ fraction frac ++ mark ∧ Wire.IsWhole whole ∧ IsDigits frac ∧ IsMark mark x ∧
    v = digitsValue (whole ++ frac) * 10 ^ (x - frac.length)

/-- The octets of such texts and of their signs. -/
def isPart (b : UInt8) : Bool :=
  Ascii.isDigit b || b == Ascii.dot || b == 0x65 || b == Ascii.plus || b == Ascii.minus

theorem stops_of_isMark {mark : Bytes} {x : Int} (h : IsMark mark x) : Stops mark := by
  rcases h with ⟨rfl, -⟩ | ⟨width, rfl, -⟩
  · nofun
  · rintro b hb
    cases hb
    refine ⟨by decide, by decide, ?_⟩
    rintro d hd
    cases hd
    decide

theorem lower_of_isPart {b : UInt8} (h : isPart b = true) : Ascii.lower b = b := by
  have hupper : Ascii.isUpper b = false := by
    simp only [isPart, Bool.or_eq_true, beq_iff_eq] at h
    rcases h with (((h | rfl) | rfl) | rfl) | rfl
    · have hdigit := isDigit_eq_true_iff.mp h
      simp only [Ascii.isUpper, UInt8.le_iff_toNat_le, Bool.and_eq_false_iff, decide_eq_false_iff_not]
      exact .inl (by rw [show (0x41 : UInt8).toNat = 0x41 from rfl]; omega)
    all_goals rfl
  rw [Ascii.lower, hupper]
  rfl

theorem isPart_of_isDigits {ds : Bytes} (h : IsDigits ds) : ∀ b ∈ ds, isPart b = true := by
  intro b hb
  simp [isPart, h b hb]

theorem isPart_exponentMark (width : Nat) (x : Int) : ∀ b ∈ Layout.exponentMark width x, isPart b = true := by
  refine List.forall_mem_cons.mpr ⟨rfl, List.forall_mem_cons.mpr ⟨by split <;> rfl, ?_⟩⟩
  exact isPart_of_isDigits (isDigits_padded _ _)

theorem isDigits_of_isWhole {s : Bytes} (h : Wire.IsWhole s) : IsDigits s ∧ s ≠ [] := by
  rcases h with rfl | ⟨hdigits, hne, -⟩
  · exact ⟨List.forall_mem_singleton.mpr rfl, List.cons_ne_nil _ _⟩
  · exact ⟨hdigits, hne⟩

theorem isPart_of_spells {s : Bytes} {v : ℚ} (h : Spells s v) : ∀ b ∈ s, isPart b = true := by
  obtain ⟨whole, frac, mark, x, rfl, hwhole, hfrac, hmark, -⟩ := h
  refine List.forall_mem_append.mpr ⟨List.forall_mem_append.mpr ⟨?_, ?_⟩, ?_⟩
  · exact isPart_of_isDigits (isDigits_of_isWhole hwhole).1
  · unfold fraction
    split
    · nofun
    · exact List.forall_mem_cons.mpr ⟨rfl, isPart_of_isDigits hfrac⟩
  · rcases hmark with ⟨rfl, -⟩ | ⟨width, rfl, -⟩
    · nofun
    · exact isPart_exponentMark width x

theorem not_mem_of_isPart {s : Bytes} (h : ∀ b ∈ s, isPart b = true) {c : UInt8} (hc : isPart c = false) : c ∉ s := by
  intro hmem
  exact absurd (h c hmem) (by rw [hc]; decide)

/-! ### Reading -/

theorem mem_of_mem_unsigned {s : Bytes} {b : UInt8} (h : b ∈ Integer.unsigned s) : b ∈ s := by
  unfold Integer.unsigned at h
  split at h
  · exact List.mem_cons_of_mem _ h
  · exact List.mem_cons_of_mem _ h
  · exact h

/-- A text of digits is no word. -/
theorem word?_eq_none {s : Bytes} (h : ∀ b ∈ s, isPart b = true) : word? s = none := by
  have hunsigned : ∀ b ∈ Integer.unsigned s, isPart b = true := fun b hb => h b (mem_of_mem_unsigned hb)
  have hlower {t : Bytes} (ht : ∀ b ∈ t, isPart b = true) : t.map Ascii.lower = t :=
    (List.map_congr_left fun b hb => lower_of_isPart (ht b hb)).trans (List.map_id t)
  have hne {t word : Bytes} (ht : ∀ b ∈ t, isPart b = true) {c : UInt8} (hc : c ∈ word) (hpart : isPart c = false) :
      t ≠ word := by
    rintro rfl
    exact not_mem_of_isPart ht hpart hc
  have hinf := hne hunsigned (show 0x69 ∈ utf8 "inf" by decide) rfl
  have hinfinity := hne hunsigned (show 0x69 ∈ utf8 "infinity" by decide) rfl
  have hnan := hne h (show 0x6e ∈ utf8 "nan" by decide) rfl
  simp [word?, hlower h, hlower hunsigned, hinf, hinfinity, hnan]

/-- Whether a text announces hexadecimal digits. -/
def isHex : Bytes → Bool
  | Ascii.zero :: x :: _ :: _ => Ascii.lower x == 0x78
  | _ => false

theorem isHex_eq_false {s : Bytes} (h : ∀ b ∈ s, isPart b = true) : isHex s = false := by
  unfold isHex
  split
  · next x _ _ =>
    have hx : isPart x = true := h x (by simp)
    rw [lower_of_isPart hx, beq_eq_false_iff_ne]
    rintro rfl
    cases hx
  · rfl

/-- A size whose base is known. -/
def sizeIn (hex : Bool) (s : Bytes) : Option Float :=
  let base := if hex then 16 else 10
  let (scan, rest) := digits base (if hex then s.drop 2 else s) {}
  if !scan.sawDigits || (s.contains Ascii.underscore && !Integer.underscoresOk s) then none
  else
    let scaled (e : Int) : Float :=
      if hex then ofBinary scan.mantissa (e - 4 * scan.places) else ofDecimal scan.mantissa (e - scan.places)
    match rest with
    | [] => if hex then none else some (scaled 0)
    | mark :: after =>
      if Ascii.lower mark == (if hex then 0x70 else 0x65) then
        match exponent? after with
        | some (e, []) => some (scaled e)
        | _ => none
      else none

theorem size?_eq (s : Bytes) : size? s = sizeIn (isHex s) s := rfl

/-- A text that spells a number is read as that number. -/
theorem size?_of_spells {s : Bytes} {v : ℚ} (h : Spells s v) :
    ∃ (n : Nat) (power : Int), v = n * 10 ^ power ∧ size? s = some (ofDecimal n power) := by
  have hparts := isPart_of_spells h
  have hunderscore : s.contains Ascii.underscore = false := by
    simpa using not_mem_of_isPart hparts (show isPart Ascii.underscore = false from rfl)
  obtain ⟨whole, frac, mark, x, rfl, hwhole, hfrac, hmark, rfl⟩ := h
  obtain ⟨hdigits, hne⟩ := isDigits_of_isWhole hwhole
  obtain ⟨sawDot, hscan⟩ := digits_parts hdigits hne hfrac (stops_of_isMark hmark)
  refine ⟨digitsValue (whole ++ frac), x - frac.length, rfl, ?_⟩
  rw [size?_eq, isHex_eq_false hparts]
  simp only [sizeIn, hunderscore, if_false, Bool.false_eq_true, hscan]
  rcases hmark with ⟨rfl, rfl⟩ | ⟨width, rfl, hx⟩
  · rfl
  · obtain ⟨after, hafter, hexponent⟩ := exponent?_exponentMark hx
    rw [hafter]
    simp [hexponent, Ascii.lower, Ascii.isUpper]

theorem exists_cons_of_spells {s : Bytes} {v : ℚ} (h : Spells s v) : ∃ b rest, s = b :: rest ∧ Ascii.isDigit b = true := by
  obtain ⟨whole, frac, mark, -, rfl, hwhole, -⟩ := h
  obtain ⟨b, rest, rfl, hb⟩ := Wire.isDigit_head_of_isWhole hwhole
  exact ⟨b, _, rfl, hb⟩

/-- A sign only turns the sign of what is read. -/
theorem read_of_size? {s : Bytes} {v : ℚ} (h : Spells s v) {x : Float} (hsize : size? s = some x) (hfinite : x.isInf = false)
    (negative : Bool) :
    read ((if negative then [Ascii.minus] else []) ++ s) = .ok (if negative then -x else x) := by
  have hparts := isPart_of_spells h
  cases negative with
  | true =>
    have hword := word?_eq_none (s := Ascii.minus :: s) (List.forall_mem_cons.mpr ⟨rfl, hparts⟩)
    have hunsigned : Integer.unsigned (Ascii.minus :: s) = s := rfl
    simp [read, hword, hunsigned, hsize, hfinite]
  | false =>
    obtain ⟨b, rest, rfl, hb⟩ := exists_cons_of_spells h
    have hminus : b ≠ Ascii.minus := ne_of_isDigit hb rfl
    simp [read, word?_eq_none hparts, Integer.unsigned_of_isDigit hb rest, hsize, hfinite, hminus]

end FloatReader

/-! ### Layouts -/

namespace Layout

open FloatReader

variable {n : Numeral} (h : n.IsNormal)
include h

theorem spells_scientificNumeral (width : Nat) (hx : n.exponent.natAbs < 100000) :
    Spells (scientificNumeral width n) n.value := by
  obtain ⟨b, rest, hcons, hb⟩ := h.head
  have hdigits := h.digits
  rw [hcons] at hdigits
  obtain ⟨hdigit, hrest⟩ := List.forall_mem_cons.mp hdigits
  have hwhole : Wire.IsWhole [b] := by
    refine .inr ⟨List.forall_mem_singleton.mpr hdigit, List.cons_ne_nil _ _, ?_⟩
    simpa using hb
  refine ⟨[b], rest, exponentMark width n.exponent, n.exponent, ?_, hwhole, hrest, .inr ⟨width, rfl, hx⟩, ?_⟩
  · rw [scientificNumeral, hcons, pointed, fraction]
    split <;> rfl
  · rw [Numeral.value, hcons, List.singleton_append, List.length_cons]
    push_cast
    rw [add_sub_cancel_right]

/-- A number below one: zeros between the point and its digits. -/
theorem spells_positionalNumeral_of_neg (hneg : n.exponent < 0) : Spells (positionalNumeral n) n.value := by
  obtain ⟨b, rest, hcons, -⟩ := h.head
  have hlen : 0 < n.digits.length := by simp [hcons]
  rw [positionalNumeral, if_pos hneg]
  set zeros := List.replicate (-n.exponent - 1).toNat Ascii.zero with hzeros
  have hfrac : IsDigits (zeros ++ n.digits) := isDigits_append.mpr ⟨isDigits_replicate_zero _, h.digits⟩
  refine ⟨[Ascii.zero], zeros ++ n.digits, [], 0, ?_, .inl rfl, hfrac, .inl ⟨rfl, rfl⟩, ?_⟩
  · have hdot : utf8 "0." = [Ascii.zero, Ascii.dot] := by decide
    rw [fraction, if_neg (by simp [hcons]), hdot]
    simp
  · have hone : digitsValue [Ascii.zero] = 0 := rfl
    rw [Numeral.value, digitsValue_append, hone, digitsValue_append, hzeros, digitsValue_replicate_zero,
      List.length_append, List.length_replicate]
    simp only [Nat.zero_mul, Nat.zero_add]
    congr 2
    omega

/-- The first digits of a numeral, with zeros behind them. -/
theorem isWhole_take {w : Nat} (hw : 0 < w) (zeros : Nat) :
    Wire.IsWhole (n.digits.take w ++ List.replicate zeros Ascii.zero) := by
  obtain ⟨b, rest, hcons, hb⟩ := h.head
  obtain ⟨w, rfl⟩ := Nat.exists_eq_succ_of_ne_zero hw.ne'
  have htake : IsDigits (n.digits.take (w + 1)) := fun c hc => h.digits c (List.mem_of_mem_take hc)
  refine .inr ⟨isDigits_append.mpr ⟨htake, isDigits_replicate_zero _⟩, by simp [hcons], ?_⟩
  simpa [hcons] using hb

/-- A number from one on: its digits end before the point, or go on after it. -/
theorem spells_positionalNumeral_of_nonneg (hnonneg : ¬ n.exponent < 0) : Spells (positionalNumeral n) n.value := by
  rw [positionalNumeral, if_neg hnonneg]
  refine ⟨_, n.digits.drop (n.exponent.toNat + 1), [], 0, (List.append_nil _).symm, isWhole_take h (Nat.succ_pos _) _,
    fun c hc => h.digits c (List.mem_of_mem_drop hc), .inl ⟨rfl, rfl⟩, ?_⟩
  rw [Numeral.value, List.length_take, List.length_drop]
  rcases Nat.lt_or_ge (n.exponent.toNat + 1) n.digits.length with hlt | hge
  · have hnone : n.exponent.toNat + 1 - min (n.exponent.toNat + 1) n.digits.length = 0 := by omega
    rw [hnone, List.replicate_zero, List.append_nil, List.take_append_drop]
    congr 2
    omega
  · rw [List.take_of_length_le hge, List.drop_of_length_le hge, List.append_nil, digitsValue_append,
      digitsValue_replicate_zero, List.length_replicate, Nat.add_zero, Nat.sub_eq_zero_of_le hge]
    push_cast
    rw [mul_assoc, mul_one, ← zpow_natCast]
    congr 2
    omega

theorem spells_positionalNumeral : Spells (positionalNumeral n) n.value := by
  rcases Int.lt_or_le n.exponent 0 with hneg | hnonneg
  · exact spells_positionalNumeral_of_neg h hneg
  · exact spells_positionalNumeral_of_nonneg h (not_lt.mpr hnonneg)

end Layout

/-- The exponent of a numeral is that of its first digit. -/
theorem Numeral.IsNormal.bounds {n : Numeral} (h : n.IsNormal) :
    10 ^ n.exponent ≤ n.value ∧ n.value < 10 ^ (n.exponent + 1) := by
  obtain ⟨b, rest, hcons, hb⟩ := h.head
  have hlow : 10 ^ rest.length ≤ digitsValue n.digits := by
    rw [hcons]
    exact pow_le_digitsValue (h.digits b (by simp [hcons])) hb rest
  have hhigh : digitsValue n.digits < 10 ^ (rest.length + 1) := by
    have hlt := digitsValue_lt h.digits
    rwa [hcons, List.length_cons, ← hcons] at hlt
  have hlowQ : (10 : ℚ) ^ rest.length ≤ digitsValue n.digits := by exact_mod_cast hlow
  have hhighQ : (digitsValue n.digits : ℚ) < 10 ^ (rest.length + 1) := by exact_mod_cast hhigh
  have hscale (k : Nat) : (10 : ℚ) ^ k * 10 ^ (n.exponent - (n.digits.length - 1)) = 10 ^ (n.exponent + k - rest.length) := by
    rw [← zpow_natCast, ← zpow_add₀ (by norm_num), hcons, List.length_cons]
    congr 1
    push_cast
    ring
  rw [Numeral.value]
  constructor
  · calc (10 : ℚ) ^ n.exponent = 10 ^ rest.length * 10 ^ (n.exponent - (n.digits.length - 1)) := by
          rw [hscale, add_sub_cancel_right]
      _ ≤ _ := by gcongr
  · calc _ < (10 : ℚ) ^ (rest.length + 1) * 10 ^ (n.exponent - (n.digits.length - 1)) := by gcongr
      _ = 10 ^ (n.exponent + 1) := by
          rw [hscale]
          congr 1
          push_cast
          ring

namespace Wire

open FloatReader

/-- A text that spells a number is a literal, with or without a sign. -/
theorem isLiteral_of_spells {s : Bytes} {v : ℚ} (h : Spells s v) (negative : Bool) :
    IsLiteral ((if negative then [Ascii.minus] else []) ++ s) := by
  obtain ⟨whole, frac, mark, x, rfl, hwhole, hfrac, hmark, -⟩ := h
  refine ⟨if negative then [Ascii.minus] else [], whole, fraction frac, mark, by simp, by cases negative <;> simp, hwhole,
    ?_, ?_⟩
  · unfold fraction
    split
    · exact .inl rfl
    · next hne => exact .inr ⟨frac, rfl, hfrac, by simpa using hne⟩
  · rcases hmark with ⟨rfl, -⟩ | ⟨width, rfl, -⟩
    · exact .inl rfl
    · exact .inr ⟨_, _, rfl, by split <;> simp, isDigits_padded _ _, by simp [Integer.ofNat_ne_nil]⟩

/-- The literal of a positive double, without a sign. -/
theorem spells_numeral {m : Nat} {e : Int} (hc : IsCanonical m e) :
    Spells (if m ≠ 0 && ((Shortest.numeral m e).exponent < -6 || 21 ≤ (Shortest.numeral m e).exponent)
      then Layout.scientificNumeral 1 (Shortest.numeral m e)
      else Layout.positionalNumeral (Shortest.numeral m e)) (Shortest.numeral m e).value := by
  obtain ⟨hnormal, hrounds⟩ := Shortest.numeral_spec hc
  obtain ⟨hlow, hhigh⟩ := hnormal.bounds
  have hupper := hrounds.lt_of_pow_le hc hlow
  have hlower := hrounds.lt_of_lt_pow hc hhigh
  split
  · exact Layout.spells_scientificNumeral hnormal 1 (by omega)
  · exact Layout.spells_positionalNumeral hnormal

/-- The literal of a finite double is a number literal, and reading it gives the double back. -/
theorem read_finiteLiteral {x : Float} {negative : Bool} {m : Nat} {e : Int}
    (h : Double.ofFloat x = .finite negative m e) :
    IsLiteral (finiteLiteral negative m e) ∧ FloatReader.read (finiteLiteral negative m e) = .ok x := by
  rcases Nat.eq_zero_or_pos m with rfl | hm
  · have hvalue : digitsValue [Ascii.zero] = 0 := rfl
    have hspells : Spells [Ascii.zero] 0 :=
      ⟨[Ascii.zero], [], [], 0, rfl, .inl rfl, nofun, .inl ⟨rfl, rfl⟩, by simp [hvalue]⟩
    have hzero : finiteLiteral negative 0 e = (if negative then [Ascii.minus] else []) ++ [Ascii.zero] := rfl
    rw [hzero, read_of_size? hspells (x := 0.0) rfl rfl, Double.eq_assemble_of_ofFloat_zero h]
    refine ⟨isLiteral_of_spells hspells negative, ?_⟩
    cases negative <;> rfl
  · obtain ⟨hc, rfl⟩ := Double.eq_assemble_of_ofFloat h hm.ne'
    have hspells := spells_numeral hc
    obtain ⟨n, power, hvalue, hsize⟩ := size?_of_spells hspells
    have hrounds := (Shortest.numeral_spec hc).2
    rw [hvalue] at hrounds
    rw [ofDecimal_eq hc hrounds] at hsize
    refine ⟨isLiteral_of_spells hspells negative, ?_⟩
    rw [finiteLiteral, read_of_size? hspells hsize (Double.isInf_assemble hc _)]
    cases negative with
    | false => rfl
    | true => exact congrArg Except.ok (Double.neg_assemble hc)

end Wire

end Stopwatch
