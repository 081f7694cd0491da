import Mathlib.Tactic.Common
import Stopwatch.Proofs.Utf8
import Stopwatch.Wire.Text

/-!
Texts over the wire. A text comes back as it went out, what is no UTF-8 in it replaced by U+FFFD; a text that is UTF-8
comes back octet for octet, whatever escapes it needs.
-/

namespace Stopwatch.Wire

/-! ### Single steps of the reader -/

/-- An octet that needs no escape. -/
def IsPlain (b : UInt8) : Prop := b ≠ Ascii.doubleQuote ∧ b ≠ Ascii.backslash ∧ ¬ b < 0x20

theorem readBody_closing (rest seen : Bytes) :
    readBody (Ascii.doubleQuote :: rest) seen = some (seen.reverse, rest) := by
  rw [readBody.eq_def]
  simp

theorem readBody_plain {b : UInt8} (h : IsPlain b) (rest seen : Bytes) :
    readBody (b :: rest) seen = readBody rest (b :: seen) := by
  obtain ⟨hquote, hback, hcontrol⟩ := h
  rw [readBody.eq_def]
  simp [hquote, hback, hcontrol]

theorem readBody_plains {bs : Bytes} (h : ∀ b ∈ bs, IsPlain b) (rest seen : Bytes) :
    readBody (bs ++ rest) seen = readBody rest (bs.reverse ++ seen) := by
  induction bs generalizing seen with
  | nil => rfl
  | cons b bs ih =>
    rw [List.forall_mem_cons] at h
    rw [List.cons_append, readBody_plain h.1, ih h.2]
    simp

theorem backslash_ne_doubleQuote : Ascii.backslash ≠ Ascii.doubleQuote := by decide

theorem readBody_escaped {c v : UInt8} (h : escaped? c = some v) (rest seen : Bytes) :
    readBody (Ascii.backslash :: c :: rest) seen = readBody rest (v :: seen) := by
  rw [readBody.eq_def]
  simp [backslash_ne_doubleQuote, h]

/-! ### Escapes by number -/

theorem digitValue?_hexDigit {n : Nat} (h : n < 16) : Ascii.digitValue? (Ascii.hexDigit n) = some n := by
  revert n
  decide

theorem word?_hexDigits {i j k l : Nat} (hi : i < 16) (hj : j < 16) (hk : k < 16) (hl : l < 16) :
    word? (Ascii.hexDigit i) (Ascii.hexDigit j) (Ascii.hexDigit k) (Ascii.hexDigit l)
      = some (((i * 16 + j) * 16 + k) * 16 + l) := by
  simp [word?, Ascii.isHexDigit, digitValue?_hexDigit, hi, hj, hk, hl]

/-- A number below 2¹⁶ is written as four digits that read back as the number. -/
theorem numbered_eq {n : Nat} (h : n < 0x10000) :
    ∃ a b c d, numbered n = [Ascii.backslash, 0x75, a, b, c, d] ∧ word? a b c d = some n := by
  refine ⟨_, _, _, _, rfl, ?_⟩
  rw [word?_hexDigits (by omega) (by omega) (by omega) (by omega)]
  congr 1
  omega

theorem readBody_malformed {e f g h : UInt8} (hword : word? e f g h = none) (after seen : Bytes) :
    readBody (Ascii.backslash :: 0x75 :: e :: f :: g :: h :: after) seen = none := by
  have hletter : escaped? 0x75 = none := rfl
  rw [readBody.eq_def]
  simp [backslash_ne_doubleQuote, hletter, hword]

/-- A number that is the first half of a pair, before an escape by number that is the second. -/
def StartsPair (n : Nat) (rest : Bytes) : Prop :=
  isHighSurrogate n = true ∧ ∃ e f g h after m, rest = Ascii.backslash :: 0x75 :: e :: f :: g :: h :: after ∧
    word? e f g h = some m ∧ isLowSurrogate m = true

/-- An escape by number that does not start a pair stands for its character. -/
theorem readBody_unit {a b c d : UInt8} {n : Nat} (hword : word? a b c d = some n) {rest : Bytes}
    (halone : ¬ StartsPair n rest) (seen : Bytes) :
    readBody (Ascii.backslash :: 0x75 :: a :: b :: c :: d :: rest) seen
      = readBody rest ((charOf n).reverse ++ seen) := by
  have hletter : escaped? 0x75 = none := rfl
  rw [readBody.eq_def]
  simp only [beq_iff_eq, backslash_ne_doubleQuote, if_false, if_true, hletter, bne_self_eq_false, Bool.false_eq_true,
    hword]
  split
  · next e f g h after =>
    -- The reader looks ahead at a second escape; a malformed one stops it here as it does one step later.
    cases hsecond : word? e f g h with
    | none => exact (readBody_malformed hsecond after _).symm
    | some m =>
      have hpair : (isHighSurrogate n && isLowSurrogate m) = false := by
        rw [Bool.eq_false_iff]
        intro hboth
        rw [Bool.and_eq_true] at hboth
        exact halone ⟨hboth.1, e, f, g, h, after, m, rfl, hsecond, hboth.2⟩
      simp only [hpair, Bool.false_eq_true, if_false]
      rfl
  · rfl

theorem readBody_pair {a b c d e f g h : UInt8} {n m : Nat} (hfirst : word? a b c d = some n)
    (hsecond : word? e f g h = some m) (hhigh : isHighSurrogate n = true) (hlow : isLowSurrogate m = true)
    (rest seen : Bytes) :
    readBody (Ascii.backslash :: 0x75 :: a :: b :: c :: d :: Ascii.backslash :: 0x75 :: e :: f :: g :: h :: rest) seen
      = readBody rest ((pairOf n m).reverse ++ seen) := by
  have hletter : escaped? 0x75 = none := rfl
  generalize hafter : Ascii.backslash :: 0x75 :: e :: f :: g :: h :: rest = after
  rw [readBody.eq_def]
  simp only [beq_iff_eq, backslash_ne_doubleQuote, if_false, if_true, hletter, bne_self_eq_false, Bool.false_eq_true,
    hfirst]
  split
  · cases hafter
    simp [hsecond, hhigh, hlow]
  · next hother => exact absurd hafter.symm (hother e f g h rest)

/-- A number that is no first half of a pair stands for its character, whatever follows. -/
theorem readBody_numbered {n : Nat} (h : n < 0x10000) (hhalf : isHighSurrogate n = false) (rest seen : Bytes) :
    readBody (numbered n ++ rest) seen = readBody rest ((charOf n).reverse ++ seen) := by
  obtain ⟨a, b, c, d, hn, hword⟩ := numbered_eq h
  have halone : ¬ StartsPair n rest := by
    rintro ⟨hhigh, -⟩
    rw [hhalf] at hhigh
    cases hhigh
  rw [hn]
  exact readBody_unit hword halone seen

/-! ### Characters and texts -/

theorem isPlain_of_high {b : UInt8} (h : 0x80 ≤ b.toNat) : IsPlain b := by
  refine ⟨?_, ?_, ?_⟩
  · rintro rfl; exact absurd h (by decide)
  · rintro rfl; exact absurd h (by decide)
  · rw [UInt8.lt_iff_toNat_lt]
    simp
    omega

/-- A character that is written as it is has plain octets only. -/
theorem isPlain_of_mem_encode {c : Char} (hquote : c ≠ '"') (hback : c ≠ '\\') (hcontrol : 0x20 ≤ c.toNat) :
    ∀ b ∈ Utf8.encode c, IsPlain b := by
  rcases Nat.lt_or_ge c.toNat 0x80 with h | h
  · have hoctet : c.toNat.toUInt8.toNat = c.toNat := Utf8.toNat_toUInt8 (by omega)
    have hne : ∀ d : Char, c ≠ d → ∀ b : UInt8, b.toNat = d.toNat → c.toNat.toUInt8 ≠ b := by
      intro d hd b hb heq
      exact hd (Char.toNat_inj.mp (by rw [← hb, ← heq, hoctet]))
    rw [Utf8.encode_ascii h]
    simp only [List.mem_singleton, forall_eq]
    refine ⟨hne _ hquote _ rfl, hne _ hback _ rfl, ?_⟩
    rw [UInt8.lt_iff_toNat_lt, hoctet]
    simpa using hcontrol
  · intro b hb
    exact isPlain_of_high (Utf8.encode_high h b hb)

theorem escaped?_of_controlLetter? {n : Nat} {letter : UInt8} (h : controlLetter? n = some letter) :
    n < 0x80 ∧ escaped? letter = some n.toUInt8 := by
  unfold controlLetter? at h
  split at h <;> cases h <;> exact ⟨by decide, rfl⟩

/-- No character has the number of a surrogate. -/
theorem isHighSurrogate_toNat (c : Char) : isHighSurrogate c.toNat = false := by
  have hvalid : c.toNat.isValidChar := c.valid
  unfold Nat.isValidChar at hvalid
  simp [isHighSurrogate]
  omega

theorem charOf_toNat (c : Char) : charOf c.toNat = Utf8.encode c := by
  have hvalid : c.toNat.isValidChar := c.valid
  unfold Nat.isValidChar at hvalid
  have hlow : isLowSurrogate c.toNat = false := by
    simp [isLowSurrogate]
    omega
  simp [charOf, isHighSurrogate_toNat, hlow, Char.ofNat_toNat]

theorem toNat_lt_of_isHarmful {c : Char} (h : isHarmful c = true) : c.toNat < 0x10000 := by
  simp only [isHarmful, Bool.or_eq_true, beq_iff_eq] at h
  rcases h with (((rfl | rfl) | rfl) | rfl) | rfl <;> decide

/-- What one character is written as is read as its octets. -/
theorem readBody_writeChar (c : Char) (rest seen : Bytes) :
    readBody (writeChar c ++ rest) seen = readBody rest ((Utf8.encode c).reverse ++ seen) := by
  rw [writeChar]
  split
  · next hmark =>
    simp only [Bool.or_eq_true, beq_iff_eq] at hmark
    rcases hmark with rfl | rfl
    · exact readBody_escaped rfl rest seen
    · exact readBody_escaped rfl rest seen
  · next hmark =>
    simp only [Bool.or_eq_true, beq_iff_eq, not_or] at hmark
    split
    · next letter hletter =>
      obtain ⟨hascii, hv⟩ := escaped?_of_controlLetter? hletter
      rw [Utf8.encode_ascii hascii]
      exact readBody_escaped hv rest seen
    · split
      · next hnumber =>
        simp only [Bool.or_eq_true, decide_eq_true_eq] at hnumber
        have hlt : c.toNat < 0x10000 := by
          rcases hnumber with h | h
          · omega
          · exact toNat_lt_of_isHarmful h
        rw [readBody_numbered hlt (isHighSurrogate_toNat c), charOf_toNat]
      · next hplain =>
        simp only [Bool.or_eq_true, decide_eq_true_eq, not_or, Nat.not_lt] at hplain
        exact readBody_plains (isPlain_of_mem_encode hmark.1 hmark.2 hplain.1) rest seen

theorem readBody_glyphs (gs : List Glyph) (rest seen : Bytes) :
    readBody (gs.flatMap writeGlyph ++ rest) seen
      = readBody rest ((gs.flatMap fun
          | .char c => Utf8.encode c
          | .octet _ => Utf8.encode '\ufffd').reverse ++ seen) := by
  induction gs generalizing seen with
  | nil => rfl
  | cons g gs ih =>
    rw [List.flatMap_cons, List.flatMap_cons, List.append_assoc]
    cases g with
    | char c =>
      rw [writeGlyph, readBody_writeChar, ih]
      simp
    | octet b =>
      have hreplacement : charOf 0xfffd = Utf8.encode '\ufffd' := charOf_toNat '\ufffd'
      rw [writeGlyph, readBody_numbered (by decide) rfl, ih, hreplacement]
      simp

/-- A text comes back repaired, with what follows its closing quote. -/
theorem readText_glyphs (s rest : Bytes) :
    readText (s.glyphs.flatMap writeGlyph ++ Ascii.doubleQuote :: rest) = some (s.repaired, rest) := by
  rw [readText, readBody_glyphs, readBody_closing]
  simp only [List.append_nil, List.reverse_reverse, Option.map_some, Option.some.injEq, Prod.mk.injEq, and_true]
  exact (Bytes.isUtf8_repaired s).repaired

/-- A text that is UTF-8 comes back as it is. -/
theorem readText_writeText {s : Bytes} (h : s.IsUtf8) (rest : Bytes) :
    ∃ body, writeText s ++ rest = Ascii.doubleQuote :: body ∧ readText body = some (s, rest) := by
  refine ⟨s.glyphs.flatMap writeGlyph ++ Ascii.doubleQuote :: rest, by simp [writeText], ?_⟩
  rw [readText_glyphs, h.repaired]

end Stopwatch.Wire
