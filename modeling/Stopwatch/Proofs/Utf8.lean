import Mathlib.Tactic.Common
import Stopwatch.Text.Utf8

/-!
UTF-8 back and forth. The glyphs of a byte string spell it, the octets of characters are read as these characters, and a
byte string is UTF-8 exactly if it reads as characters throughout.
-/

namespace Stopwatch

namespace Utf8

/-! ### Octets of one character -/

theorem toNat_toUInt8 {k : Nat} (h : k < 256) : k.toUInt8.toNat = k := by
  simp [Nat.toUInt8, Nat.mod_eq_of_lt h]

theorem toUInt8_toNat (b : UInt8) : b.toNat.toUInt8 = b := by
  simp [Nat.toUInt8]

theorem toNat_lt (c : Char) : c.toNat < 0x110000 := by
  have hvalid : c.toNat.isValidChar := c.valid
  unfold Nat.isValidChar at hvalid
  omega

/-- Characters and the numbers that stand for them. -/
theorem toChar?_eq_some_iff {least n : Nat} {c : Char} : toChar? least n = some c ↔ least ≤ n ∧ c.toNat = n := by
  rw [toChar?]
  constructor
  · intro h
    split at h
    · next hn =>
      simp only [Bool.and_eq_true, decide_eq_true_eq] at hn
      cases h
      exact ⟨hn.1, by rw [Char.ofNat, dif_pos hn.2]; rfl⟩
    · cases h
  · rintro ⟨hle, rfl⟩
    have hvalid : c.toNat.isValidChar := c.valid
    simp [hle, hvalid, Char.ofNat_toNat]

theorem isTail_eq_true_iff {b : UInt8} : isTail b = true ↔ 0x80 ≤ b.toNat ∧ b.toNat ≤ 0xbf := by
  simp [isTail, UInt8.le_iff_toNat_le]

/-- Two octets are a character exactly if they are its octets, and there are two of them. -/
theorem two?_eq_some_iff {a b : UInt8} {c : Char} :
    two? a b = some c ↔ (0x80 ≤ c.toNat ∧ c.toNat < 0x800) ∧ encode c = [a, b] := by
  rw [two?]
  constructor
  · intro h
    split at h
    · next hguard =>
      simp only [Bool.and_eq_true, decide_eq_true_eq, isTail_eq_true_iff, UInt8.le_iff_toNat_le] at hguard
      obtain ⟨hle, hc⟩ := toChar?_eq_some_iff.mp h
      obtain ⟨⟨ha, ha'⟩, hb, hb'⟩ := hguard
      simp at ha ha'
      have hhi : c.toNat < 0x800 := by omega
      refine ⟨⟨by omega, hhi⟩, ?_⟩
      have hlead : 0xc0 + c.toNat / 0x40 = a.toNat := by omega
      have htail : 0x80 + c.toNat % 0x40 = b.toNat := by omega
      rw [encode, if_neg (by omega), if_pos hhi, hlead, htail, toUInt8_toNat, toUInt8_toNat]
    · cases h
  · rintro ⟨⟨hlo, hhi⟩, henc⟩
    rw [encode, if_neg (by omega), if_pos hhi, List.cons.injEq, List.cons.injEq] at henc
    obtain ⟨rfl, rfl, -⟩ := henc
    have ha : (0xc0 + c.toNat / 0x40).toUInt8.toNat = 0xc0 + c.toNat / 0x40 := toNat_toUInt8 (by omega)
    have hb : (0x80 + c.toNat % 0x40).toUInt8.toNat = 0x80 + c.toNat % 0x40 := toNat_toUInt8 (by omega)
    rw [if_pos, toChar?_eq_some_iff, ha, hb]
    · omega
    · simp only [Bool.and_eq_true, decide_eq_true_eq, isTail_eq_true_iff, UInt8.le_iff_toNat_le, ha, hb]
      simp
      omega

/-- The same of three octets. -/
theorem three?_eq_some_iff {a b d : UInt8} {c : Char} :
    three? a b d = some c ↔ (0x800 ≤ c.toNat ∧ c.toNat < 0x10000) ∧ encode c = [a, b, d] := by
  rw [three?]
  constructor
  · intro h
    split at h
    · next hguard =>
      simp only [Bool.and_eq_true, decide_eq_true_eq, isTail_eq_true_iff, UInt8.le_iff_toNat_le] at hguard
      obtain ⟨hle, hc⟩ := toChar?_eq_some_iff.mp h
      obtain ⟨⟨⟨ha, ha'⟩, hb, hb'⟩, hd, hd'⟩ := hguard
      simp at ha ha'
      have hhi : c.toNat < 0x10000 := by omega
      refine ⟨⟨by omega, hhi⟩, ?_⟩
      have hlead : 0xe0 + c.toNat / 0x1000 = a.toNat := by omega
      have hmid : 0x80 + c.toNat / 0x40 % 0x40 = b.toNat := by omega
      have htail : 0x80 + c.toNat % 0x40 = d.toNat := by omega
      rw [encode, if_neg (by omega), if_neg (by omega), if_pos hhi, hlead, hmid, htail]
      simp only [toUInt8_toNat]
    · cases h
  · rintro ⟨⟨hlo, hhi⟩, henc⟩
    rw [encode, if_neg (by omega), if_neg (by omega), if_pos hhi] at henc
    simp only [List.cons.injEq, and_true] at henc
    obtain ⟨rfl, rfl, rfl⟩ := henc
    have ha : (0xe0 + c.toNat / 0x1000).toUInt8.toNat = 0xe0 + c.toNat / 0x1000 := toNat_toUInt8 (by omega)
    have hb : (0x80 + c.toNat / 0x40 % 0x40).toUInt8.toNat = 0x80 + c.toNat / 0x40 % 0x40 := toNat_toUInt8 (by omega)
    have hd : (0x80 + c.toNat % 0x40).toUInt8.toNat = 0x80 + c.toNat % 0x40 := toNat_toUInt8 (by omega)
    rw [if_pos, toChar?_eq_some_iff, ha, hb, hd]
    · omega
    · simp only [Bool.and_eq_true, decide_eq_true_eq, isTail_eq_true_iff, UInt8.le_iff_toNat_le, ha, hb, hd]
      simp
      omega

/-- The same of four octets. -/
theorem four?_eq_some_iff {a b d e : UInt8} {c : Char} :
    four? a b d e = some c ↔ 0x10000 ≤ c.toNat ∧ encode c = [a, b, d, e] := by
  rw [four?]
  constructor
  · intro h
    split at h
    · next hguard =>
      simp only [Bool.and_eq_true, decide_eq_true_eq, isTail_eq_true_iff, UInt8.le_iff_toNat_le] at hguard
      obtain ⟨hle, hc⟩ := toChar?_eq_some_iff.mp h
      obtain ⟨⟨⟨⟨ha, ha'⟩, hb, hb'⟩, hd, hd'⟩, he, he'⟩ := hguard
      simp at ha ha'
      refine ⟨by omega, ?_⟩
      have hlead : 0xf0 + c.toNat / 0x40000 = a.toNat := by omega
      have hmid : 0x80 + c.toNat / 0x1000 % 0x40 = b.toNat := by omega
      have hmid' : 0x80 + c.toNat / 0x40 % 0x40 = d.toNat := by omega
      have htail : 0x80 + c.toNat % 0x40 = e.toNat := by omega
      rw [encode, if_neg (by omega), if_neg (by omega), if_neg (by omega), hlead, hmid, hmid', htail]
      simp only [toUInt8_toNat]
    · cases h
  · rintro ⟨hlo, henc⟩
    have hmax := toNat_lt c
    rw [encode, if_neg (by omega), if_neg (by omega), if_neg (by omega)] at henc
    simp only [List.cons.injEq, and_true] at henc
    obtain ⟨rfl, rfl, rfl, rfl⟩ := henc
    have ha : (0xf0 + c.toNat / 0x40000).toUInt8.toNat = 0xf0 + c.toNat / 0x40000 := toNat_toUInt8 (by omega)
    have hb : (0x80 + c.toNat / 0x1000 % 0x40).toUInt8.toNat = 0x80 + c.toNat / 0x1000 % 0x40 :=
      toNat_toUInt8 (by omega)
    have hd : (0x80 + c.toNat / 0x40 % 0x40).toUInt8.toNat = 0x80 + c.toNat / 0x40 % 0x40 := toNat_toUInt8 (by omega)
    have he : (0x80 + c.toNat % 0x40).toUInt8.toNat = 0x80 + c.toNat % 0x40 := toNat_toUInt8 (by omega)
    rw [if_pos, toChar?_eq_some_iff, ha, hb, hd, he]
    · omega
    · simp only [Bool.and_eq_true, decide_eq_true_eq, isTail_eq_true_iff, UInt8.le_iff_toNat_le, ha, hb, hd, he]
      simp
      omega

/-- An ASCII character has one octet. -/
theorem encode_ascii {c : Char} (h : c.toNat < 0x80) : encode c = [c.toNat.toUInt8] := by
  rw [encode, if_pos h]

theorem encode_ofNat_ascii {a : UInt8} (h : a.toNat < 0x80) : encode (Char.ofNat a.toNat) = [a] := by
  have hchar : toChar? 0 a.toNat = some (Char.ofNat a.toNat) := by
    simp [toChar?]
    omega
  obtain ⟨-, hn⟩ := toChar?_eq_some_iff.mp hchar
  rw [encode_ascii (by omega), hn, toUInt8_toNat]

/-- Every other one has high octets only, and at least two of them. -/
theorem encode_high {c : Char} (h : 0x80 ≤ c.toNat) : ∀ b ∈ encode c, 0x80 ≤ b.toNat := by
  have hmax := toNat_lt c
  have hoctet : ∀ k, 0x80 ≤ k → k < 256 → 0x80 ≤ k.toUInt8.toNat := by
    intro k hk hk'
    rw [toNat_toUInt8 hk']
    exact hk
  rw [encode, if_neg (by omega)]
  split
  · simp only [List.forall_mem_cons]
    exact ⟨hoctet _ (by omega) (by omega), hoctet _ (by omega) (by omega), nofun⟩
  · split
    · simp only [List.forall_mem_cons]
      exact ⟨hoctet _ (by omega) (by omega), hoctet _ (by omega) (by omega), hoctet _ (by omega) (by omega), nofun⟩
    · simp only [List.forall_mem_cons]
      exact ⟨hoctet _ (by omega) (by omega), hoctet _ (by omega) (by omega), hoctet _ (by omega) (by omega),
        hoctet _ (by omega) (by omega), nofun⟩

/-! ### Reading -/

theorem two?_eq_none {a b : UInt8} (h : 0xe0 ≤ a.toNat) : two? a b = none := by
  rw [two?, if_neg]
  simp only [Bool.and_eq_true, decide_eq_true_eq, UInt8.le_iff_toNat_le]
  rintro ⟨⟨-, ha⟩, -⟩
  exact absurd ha (by simp; omega)

theorem three?_eq_none {a b c : UInt8} (h : 0xf0 ≤ a.toNat) : three? a b c = none := by
  rw [three?, if_neg]
  simp only [Bool.and_eq_true, decide_eq_true_eq, UInt8.le_iff_toNat_le]
  rintro ⟨⟨⟨-, ha⟩, -⟩, -⟩
  exact absurd ha (by simp; omega)

/-- The octets of a character are read as that character. -/
theorem read_encode (c : Char) (rest : Bytes) (seen : List Glyph) :
    read (encode c ++ rest) seen = read rest (.char c :: seen) := by
  have hhigh : ∀ {a : UInt8}, 0x80 ≤ a.toNat → ¬ a < 0x80 := by
    intro a ha
    rw [UInt8.lt_iff_toNat_lt]
    simpa using ha
  rcases Nat.lt_or_ge c.toNat 0x80 with h1 | h1
  · have ha : c.toNat.toUInt8.toNat = c.toNat := toNat_toUInt8 (by omega)
    have hlow : c.toNat.toUInt8 < 0x80 := by
      rw [UInt8.lt_iff_toNat_lt, ha]
      simpa using h1
    rw [encode_ascii h1, List.cons_append, List.nil_append, read.eq_def]
    simp only [if_pos hlow, ha, Char.ofNat_toNat]
  have hoctets := encode_high h1
  rcases Nat.lt_or_ge c.toNat 0x800 with h2 | h2
  · obtain ⟨a, b, henc⟩ : ∃ a b, encode c = [a, b] := by
      rw [encode, if_neg (by omega), if_pos h2]; exact ⟨_, _, rfl⟩
    have hread : two? a b = some c := two?_eq_some_iff.mpr ⟨⟨h1, h2⟩, henc⟩
    rw [henc] at hoctets ⊢
    rw [read.eq_def]
    simp [hhigh (hoctets a (by simp)), hread]
  rcases Nat.lt_or_ge c.toNat 0x10000 with h3 | h3
  · obtain ⟨a, b, d, henc, ha⟩ : ∃ a b d, encode c = [a, b, d] ∧ 0xe0 ≤ a.toNat := by
      rw [encode, if_neg (by omega), if_neg (by omega), if_pos h3]
      exact ⟨_, _, _, rfl, by rw [toNat_toUInt8 (by omega)]; omega⟩
    have hread : three? a b d = some c := three?_eq_some_iff.mpr ⟨⟨h2, h3⟩, henc⟩
    rw [henc] at hoctets ⊢
    rw [read.eq_def]
    simp [hhigh (hoctets a (by simp)), two?_eq_none ha, hread]
  · obtain ⟨a, b, d, e, henc, ha⟩ : ∃ a b d e, encode c = [a, b, d, e] ∧ 0xf0 ≤ a.toNat := by
      have hmax := toNat_lt c
      rw [encode, if_neg (by omega), if_neg (by omega), if_neg (by omega)]
      exact ⟨_, _, _, _, rfl, by rw [toNat_toUInt8 (by omega)]; omega⟩
    have hread : four? a b d e = some c := four?_eq_some_iff.mpr ⟨h3, henc⟩
    rw [henc] at hoctets ⊢
    rw [read.eq_def]
    simp [hhigh (hoctets a (by simp)), two?_eq_none (Nat.le_trans (by decide) ha), three?_eq_none ha, hread]

/-- What was read spells what was there. -/
theorem flatMap_bytes_read (s : Bytes) (seen : List Glyph) :
    (read s seen).flatMap Glyph.bytes = seen.reverse.flatMap Glyph.bytes ++ s := by
  fun_induction read s seen with
  | case1 seen => simp
  | case2 a r seen h ih =>
    have hlow : a.toNat < 0x80 := by simpa [UInt8.lt_iff_toNat_lt] using h
    simp [ih, Glyph.bytes, encode_ofNat_ascii hlow]
  | case4 a seen h b r c hc ih => simp [ih, Glyph.bytes, (two?_eq_some_iff.mp hc).2]
  | case6 a seen h b _ d r c hc ih => simp [ih, Glyph.bytes, (three?_eq_some_iff.mp hc).2]
  | case8 a seen h b _ d _ e r c hc ih => simp [ih, Glyph.bytes, (four?_eq_some_iff.mp hc).2]
  | case3 _ _ _ ih | case5 _ _ _ _ _ ih | case7 _ _ _ _ _ _ _ ih | case9 _ _ _ _ _ _ _ _ _ _ ih =>
    simp [ih, Glyph.bytes]

end Utf8

namespace Bytes

/-- The glyphs of a byte string spell it. -/
theorem ofGlyphs_glyphs (s : Bytes) : ofGlyphs s.glyphs = s := Utf8.flatMap_bytes_read s []

/-- The octets of characters are read as these characters. -/
theorem glyphs_ofChars (cs : List Char) : (ofChars cs).glyphs = cs.map .char := by
  have hread : ∀ (cs : List Char) (seen : List Glyph),
      Utf8.read (ofChars cs) seen = seen.reverse ++ cs.map .char := by
    intro cs
    induction cs with
    | nil => intro seen; simp [ofChars, Utf8.read]
    | cons c cs ih =>
      intro seen
      rw [ofChars, List.flatMap_cons, Utf8.read_encode, ← ofChars, ih]
      simp
  exact hread cs []

/-- A byte string that is UTF-8: the octets of some characters. -/
def IsUtf8 (s : Bytes) : Prop := ∃ cs : List Char, s = ofChars cs

theorem repaired_ofChars (cs : List Char) : repaired (ofChars cs) = ofChars cs := by
  rw [repaired, glyphs_ofChars, List.flatMap_map]
  rfl

theorem IsUtf8.repaired {s : Bytes} : s.IsUtf8 → s.repaired = s := by
  rintro ⟨cs, rfl⟩
  exact repaired_ofChars cs

/-- The character that a glyph is repaired to. -/
def shown : Glyph → Char
  | .char c => c
  | .octet _ => '\ufffd'

/-- What is repaired is UTF-8. -/
theorem isUtf8_repaired (s : Bytes) : s.repaired.IsUtf8 := by
  refine ⟨s.glyphs.map shown, ?_⟩
  rw [Bytes.repaired, ofChars, List.flatMap_map]
  congr 1
  funext g
  cases g <;> rfl

theorem chars?_ofChars (cs : List Char) : chars? (ofChars cs) = some cs := by
  rw [chars?, glyphs_ofChars]
  induction cs with
  | nil => rfl
  | cons c cs ih => simp [List.mapM_cons, ih]

/-- The character of a glyph that is one. -/
def charOf? : Glyph → Option Char
  | .char c => some c
  | .octet _ => none

theorem eq_ofChars_of_chars? {s : Bytes} {cs : List Char} (h : s.chars? = some cs) : s = ofChars cs := by
  have hspell : ∀ (gs : List Glyph) (cs : List Char), gs.mapM charOf? = some cs → ofGlyphs gs = ofChars cs := by
    intro gs
    induction gs with
    | nil => intro cs h; cases h; rfl
    | cons g gs ih =>
      intro cs h
      cases g with
      | octet b => simp [List.mapM_cons, charOf?] at h
      | char c =>
        simp only [List.mapM_cons, charOf?, bind, Option.bind_some] at h
        obtain ⟨rest, hrest, hcs⟩ := Option.bind_eq_some_iff.mp h
        cases hcs
        simp [ofGlyphs, ofChars, Glyph.bytes] at ih ⊢
        exact ih rest hrest
  rw [← ofGlyphs_glyphs s]
  exact hspell _ _ h

theorem isUtf8_iff_isSome_chars? (s : Bytes) : s.IsUtf8 ↔ s.chars?.isSome = true := by
  constructor
  · rintro ⟨cs, rfl⟩
    rw [chars?_ofChars]; rfl
  · intro h
    obtain ⟨cs, hcs⟩ := Option.isSome_iff_exists.mp h
    exact ⟨cs, eq_ofChars_of_chars? hcs⟩

instance (s : Bytes) : Decidable s.IsUtf8 := decidable_of_iff _ (isUtf8_iff_isSome_chars? s).symm

theorem IsUtf8.append {s t : Bytes} : s.IsUtf8 → t.IsUtf8 → (s ++ t).IsUtf8 := by
  rintro ⟨cs, rfl⟩ ⟨ds, rfl⟩
  exact ⟨cs ++ ds, by simp [ofChars]⟩

/-- ASCII is UTF-8. -/
theorem isUtf8_of_ascii {s : Bytes} (h : ∀ b ∈ s, b.toNat < 0x80) : s.IsUtf8 := by
  induction s with
  | nil => exact ⟨[], rfl⟩
  | cons b s ih =>
    rw [List.forall_mem_cons] at h
    obtain ⟨cs, rfl⟩ := ih h.2
    refine ⟨Char.ofNat b.toNat :: cs, ?_⟩
    simp [ofChars, Utf8.encode_ofNat_ascii h.1]

end Bytes

end Stopwatch
