import Stopwatch.Proofs.FloatLiterals

/-!
Texts without blanks and controls. Whatever is read as a number is such a text, so it stands on one line, and so does the
numeral of an integer.
-/

namespace Stopwatch

/-- A text without blanks and controls. -/
def IsVisible (s : Bytes) : Prop := ∀ b ∈ s, Ascii.space < b

theorem isVisible_of_all {s : Bytes} (h : (s.all fun b => Ascii.space < b) = true) : IsVisible s :=
  fun b hb => of_decide_eq_true (List.all_eq_true.mp h b hb)

theorem isVisible_append {s t : Bytes} : IsVisible (s ++ t) ↔ IsVisible s ∧ IsVisible t := List.forall_mem_append

theorem isVisible_cons {b : UInt8} {s : Bytes} : IsVisible (b :: s) ↔ Ascii.space < b ∧ IsVisible s :=
  List.forall_mem_cons

theorem IsVisible.not_mem {s : Bytes} (h : IsVisible s) {b : UInt8} (hb : b ≤ Ascii.space) : b ∉ s :=
  fun hmem => absurd (h b hmem) (UInt8.not_lt.mpr hb)

/-- A text is visible up to the rest that a reader leaves of it. -/
def VisibleUpTo (rest s : Bytes) : Prop := ∃ front, s = front ++ rest ∧ IsVisible front

theorem VisibleUpTo.refl (s : Bytes) : VisibleUpTo s s := ⟨[], rfl, List.forall_mem_nil _⟩

theorem VisibleUpTo.cons {b : UInt8} {rest s : Bytes} (hb : Ascii.space < b) (h : VisibleUpTo rest s) :
    VisibleUpTo rest (b :: s) := by
  obtain ⟨front, rfl, hfront⟩ := h
  exact ⟨b :: front, rfl, isVisible_cons.mpr ⟨hb, hfront⟩⟩

theorem VisibleUpTo.isVisible {rest s : Bytes} (h : VisibleUpTo rest s) (hrest : IsVisible rest) : IsVisible s := by
  obtain ⟨front, rfl, hfront⟩ := h
  exact isVisible_append.mpr ⟨hfront, hrest⟩

theorem isVisible_of_unsigned {s : Bytes} (h : IsVisible (Integer.unsigned s)) : IsVisible s := by
  unfold Integer.unsigned at h
  split at h
  · exact isVisible_cons.mpr ⟨by decide, h⟩
  · exact isVisible_cons.mpr ⟨by decide, h⟩
  · exact h

theorem space_lt_of_lower {b : UInt8} (h : Ascii.space < Ascii.lower b) : Ascii.space < b := by
  unfold Ascii.lower at h
  split at h
  · next hupper =>
    simp only [Ascii.isUpper, Bool.and_eq_true, decide_eq_true_eq] at hupper
    exact UInt8.lt_of_lt_of_le (by decide) hupper.1
  · exact h

theorem isVisible_of_lower {s word : Bytes} (h : s.map Ascii.lower = word) (hword : IsVisible word) : IsVisible s :=
  fun _ hb => space_lt_of_lower (hword _ (h ▸ List.mem_map_of_mem hb))

theorem space_lt_of_isDigit {b : UInt8} (h : Ascii.isDigit b = true) : Ascii.space < b :=
  UInt8.lt_iff_toNat_lt.mpr (Nat.lt_of_lt_of_le (by decide) (isDigit_eq_true_iff.mp h).1)

theorem isVisible_of_isDigits {s : Bytes} (h : IsDigits s) : IsVisible s :=
  fun b hb => space_lt_of_isDigit (h b hb)

theorem space_lt_of_isLetter {b : UInt8} (h : Ascii.isLetter b = true) : Ascii.space < b := by
  simp only [Ascii.isLetter, Ascii.isUpper, Ascii.isLower, Bool.or_eq_true, Bool.and_eq_true, decide_eq_true_eq] at h
  rcases h with hupper | hlower
  · exact UInt8.lt_of_lt_of_le (by decide) hupper.1
  · exact UInt8.lt_of_lt_of_le (by decide) hlower.1

theorem space_lt_of_digitValue? {b : UInt8} {d : Nat} (h : Ascii.digitValue? b = some d) : Ascii.space < b := by
  rw [Ascii.digitValue?] at h
  split at h
  · next hdigit => exact space_lt_of_isDigit hdigit
  · split at h
    · next hletter => exact space_lt_of_isLetter hletter
    · cases h

namespace FloatReader

/-- What is read as digits is visible. -/
theorem digits_front (base : Nat) (s : Bytes) (scan : Scan) : VisibleUpTo (digits base s scan).2 s := by
  induction s generalizing scan with
  | nil => exact .refl []
  | cons b rest ih =>
    rw [digits]
    split
    · next hb => exact .cons (by rw [beq_iff_eq.mp hb]; decide) (ih _)
    · split
      · next hb =>
        split
        · exact .refl _
        · exact .cons (by rw [beq_iff_eq.mp hb]; decide) (ih _)
      · split
        · next d hd =>
          split
          · exact .cons (space_lt_of_digitValue? hd) (ih _)
          · exact .refl _
        · exact .refl _

theorem exponentDigits_front (s : Bytes) (n : Nat) : VisibleUpTo (exponentDigits s n).2 s := by
  induction s generalizing n with
  | nil => exact .refl []
  | cons b rest ih =>
    rw [exponentDigits]
    split
    · next hb => exact .cons (space_lt_of_digitValue? (digitValue?_of_isDigit hb)) (ih _)
    · split
      · next hb => exact .cons (by rw [beq_iff_eq.mp hb]; decide) (ih _)
      · exact .refl _

theorem isVisible_of_exponent? {s : Bytes} {e : Int} (h : exponent? s = some (e, [])) : IsVisible s := by
  refine isVisible_of_unsigned ?_
  rw [exponent?] at h
  cases hbody : Integer.unsigned s with
  | nil => exact List.forall_mem_nil _
  | cons b rest =>
    simp only [hbody] at h
    split at h
    · have hrest : (exponentDigits (b :: rest) 0).2 = [] := (Prod.mk.inj (Option.some.inj h)).2
      refine (exponentDigits_front (b :: rest) 0).isVisible ?_
      rw [hrest]
      exact List.forall_mem_nil _
    · cases h

theorem isVisible_of_sizeIn {hex : Bool} {s : Bytes} {x : Float} (h : sizeIn hex s = some x) :
    IsVisible (if hex then s.drop 2 else s) := by
  refine (digits_front (if hex then 16 else 10) (if hex then s.drop 2 else s) {}).isVisible ?_
  rw [sizeIn] at h
  generalize digits _ _ _ = found at h ⊢
  obtain ⟨scan, rest⟩ := found
  simp only at h
  split at h
  · cases h
  · cases rest with
    | nil => exact List.forall_mem_nil _
    | cons mark after =>
      by_cases hmark : (Ascii.lower mark == (if hex then 0x70 else 0x65)) = true
      · simp only [if_pos hmark] at h
        have hvisible : Ascii.space < Ascii.lower mark := by
          rw [beq_iff_eq.mp hmark]
          cases hex <;> decide
        split at h
        · next hexponent =>
          exact isVisible_cons.mpr ⟨space_lt_of_lower hvisible, isVisible_of_exponent? hexponent⟩
        · cases h
      · simp only [if_neg hmark] at h
        cases h

/-- A size is visible from one end to the other: digits, perhaps behind the mark of their base, and perhaps an exponent. -/
theorem isVisible_of_size? {s : Bytes} {x : Float} (h : size? s = some x) : IsVisible s := by
  have hbody := isVisible_of_sizeIn (size?_eq s ▸ h)
  by_cases hhex : isHex s = true
  · rw [if_pos hhex] at hbody
    unfold isHex at hhex
    split at hhex
    · next mark _ _ =>
      have hmark : Ascii.space < mark := space_lt_of_lower (by rw [beq_iff_eq.mp hhex]; decide)
      exact isVisible_cons.mpr ⟨by decide, isVisible_cons.mpr ⟨hmark, hbody⟩⟩
    · cases hhex
  · rwa [if_neg hhex] at hbody

theorem isVisible_of_word? {s : Bytes} {x : Float} (h : word? s = some x) : IsVisible s := by
  simp only [word?] at h
  split at h
  · next hword =>
    refine isVisible_of_unsigned ?_
    rw [Bool.or_eq_true, beq_iff_eq, beq_iff_eq] at hword
    rcases hword with hinf | hinfinity
    · exact isVisible_of_lower hinf (isVisible_of_all rfl)
    · exact isVisible_of_lower hinfinity (isVisible_of_all rfl)
  · split at h
    · next hnan => exact isVisible_of_lower (beq_iff_eq.mp hnan) (isVisible_of_all rfl)
    · cases h

/-- A text that is read as a double stands on one line. -/
theorem isVisible_of_read {s : Bytes} {x : Float} (h : read s = .ok x) : IsVisible s := by
  rw [read] at h
  split at h
  · next hword => exact isVisible_of_word? hword
  · split at h
    · cases h
    · next hsize => exact isVisible_of_unsigned (isVisible_of_size? hsize)

end FloatReader

/-- The numeral of an integer is visible. -/
theorem Integer.isVisible_ofInt64 (n : Int64) : IsVisible (Integer.ofInt64 n) := by
  rw [Integer.ofInt64]
  cases n.toInt with
  | ofNat k => exact isVisible_of_isDigits (Integer.isDigits_ofNat k)
  | negSucc k => exact isVisible_cons.mpr ⟨by decide, isVisible_of_isDigits (Integer.isDigits_ofNat (k + 1))⟩

end Stopwatch
