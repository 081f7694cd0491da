import Mathlib.Tactic.Common
import Stopwatch.Proofs.Numerals
import Stopwatch.Wire.Reader

/-!
Number literals: a sign, a whole part, places after a point, an exponent. A literal is read whole wherever it stands, and
the numerals of machine integers are literals.
-/

namespace Stopwatch.Wire

/-- Nothing that could belong to a number literal before it. -/
def Terminates (rest : Bytes) : Prop :=
  ∀ b, rest.head? = some b → Ascii.isDigit b = false ∧ b ≠ Ascii.dot ∧ b ≠ 0x65 ∧ b ≠ 0x45

/-- A zero alone, or digits that do not start with one. -/
def IsWhole (s : Bytes) : Prop := s = [Ascii.zero] ∨ IsDigits s ∧ s ≠ [] ∧ s.head? ≠ some Ascii.zero

/-- Nothing, or digits after a point. -/
def IsPlaces (s : Bytes) : Prop := s = [] ∨ ∃ ds, s = Ascii.dot :: ds ∧ IsDigits ds ∧ ds ≠ []

/-- Nothing, or digits after a mark and a sign. -/
def IsExponent (s : Bytes) : Prop :=
  s = [] ∨ ∃ sign ds, s = 0x65 :: sign :: ds ∧ (sign = Ascii.plus ∨ sign = Ascii.minus) ∧ IsDigits ds ∧ ds ≠ []

/-- A number literal. -/
def IsLiteral (s : Bytes) : Prop :=
  ∃ sign whole places exponent, s = sign ++ whole ++ places ++ exponent ∧ (sign = [] ∨ sign = [Ascii.minus]) ∧
    IsWhole whole ∧ IsPlaces places ∧ IsExponent exponent

/-- Nothing, or digits after a mark in either case and perhaps a sign. -/
def IsScale (s : Bytes) : Prop :=
  s = [] ∨ ∃ mark sign ds, s = mark :: (sign ++ ds) ∧ (mark = 0x65 ∨ mark = 0x45) ∧
    (sign = [] ∨ sign = [Ascii.plus] ∨ sign = [Ascii.minus]) ∧ IsDigits ds ∧ ds ≠ []

/-- A number literal with any exponent that is understood; those that are written have their sign. -/
def IsNumber (s : Bytes) : Prop :=
  ∃ sign whole places scale, s = sign ++ whole ++ places ++ scale ∧ (sign = [] ∨ sign = [Ascii.minus]) ∧
    IsWhole whole ∧ IsPlaces places ∧ IsScale scale

theorem IsLiteral.isNumber {s : Bytes} (h : IsLiteral s) : IsNumber s := by
  obtain ⟨sign, whole, places, exponent, hs, hsign, hwhole, hplaces, hexponent⟩ := h
  refine ⟨sign, whole, places, exponent, hs, hsign, hwhole, hplaces, hexponent.imp_right ?_⟩
  rintro ⟨mark, ds, rfl, hmark, hdigits⟩
  exact ⟨0x65, [mark], ds, rfl, .inl rfl, .inr (hmark.imp (fun h => by rw [h]) fun h => by rw [h]), hdigits⟩

/-! ### Reading the parts -/

theorem digits?_append {ds rest : Bytes} (hdigits : IsDigits ds) (hne : ds ≠ [])
    (hrest : ∀ b, rest.head? = some b → Ascii.isDigit b = false) : digits? (ds ++ rest) = some (ds, rest) := by
  have htake : rest.takeWhile Ascii.isDigit = [] ∧ rest.dropWhile Ascii.isDigit = rest := by
    cases rest with
    | nil => exact ⟨rfl, rfl⟩
    | cons b rest => simp [hrest b rfl]
  simp only [digits?, List.takeWhile_append_of_pos hdigits, List.dropWhile_append_of_pos hdigits, htake.1, htake.2,
    List.append_nil]
  rw [if_neg (by simpa using hne)]

theorem whole?_append {s rest : Bytes} (h : IsWhole s) (hrest : ∀ b, rest.head? = some b → Ascii.isDigit b = false) :
    whole? (s ++ rest) = some (s, rest) := by
  rcases h with rfl | ⟨hdigits, hne, hzero⟩
  · rfl
  · have hread := digits?_append hdigits hne hrest
    rcases s with _ | ⟨b, s⟩
    · exact absurd rfl hne
    · rw [List.cons_append] at hread ⊢
      unfold whole?
      split
      · next heq => exact absurd (by rw [(List.cons.inj heq).1]; rfl) hzero
      · exact hread

/-- What may follow the places. -/
theorem places?_append {s rest : Bytes} (h : IsPlaces s)
    (hrest : ∀ b, rest.head? = some b → Ascii.isDigit b = false ∧ b ≠ Ascii.dot) :
    places? (s ++ rest) = some (s, rest) := by
  rcases h with rfl | ⟨ds, rfl, hdigits, hne⟩
  · rw [List.nil_append]
    unfold places?
    split
    · exact absurd rfl (hrest _ rfl).2
    · rfl
  · have hread := digits?_append hdigits hne fun b hb => (hrest b hb).1
    calc places? (Ascii.dot :: ds ++ rest)
        = (digits? (ds ++ rest)).map fun part => (Ascii.dot :: part.1, part.2) := rfl
      _ = some (Ascii.dot :: ds, rest) := by rw [hread]; rfl

theorem exponent?_append {s rest : Bytes} (h : IsScale s) (hrest : Terminates rest) :
    exponent? (s ++ rest) = some (s, rest) := by
  rcases h with rfl | ⟨mark, sign, ds, rfl, hmark, hsign, hdigits, hne⟩
  · cases rest with
    | nil => rfl
    | cons b rest =>
      obtain ⟨-, -, hlow, hhigh⟩ := hrest b rfl
      simp [exponent?, hlow, hhigh]
  · have hread := digits?_append hdigits hne fun b hb => (hrest b hb).1
    have hmark : (mark == 0x65 || mark == 0x45) = true := by
      rcases hmark with rfl | rfl <;> rfl
    rcases hsign with rfl | rfl | rfl
    · obtain ⟨b, ds, rfl⟩ := List.exists_cons_of_ne_nil hne
      have hdigit := hdigits b List.mem_cons_self
      have hnone : (b == Ascii.plus || b == Ascii.minus) = false := by
        rw [Bool.or_eq_false_iff, beq_eq_false_iff_ne, beq_eq_false_iff_ne]
        constructor <;> (rintro rfl; exact absurd hdigit (by decide))
      rw [List.cons_append] at hread
      simp [exponent?, hmark, hnone, hread]
    · simp [exponent?, hmark, hread]
    · simp [exponent?, hmark, hread]

/-- The next part of a literal starts with no digit, and the part after the places with no point either. -/
theorem head?_scale_append {s rest : Bytes} (h : IsScale s) (hrest : Terminates rest) :
    ∀ b, (s ++ rest).head? = some b → Ascii.isDigit b = false ∧ b ≠ Ascii.dot := by
  rcases h with rfl | ⟨mark, sign, ds, rfl, hmark, -⟩
  · intro b hb
    exact ⟨(hrest b hb).1, (hrest b hb).2.1⟩
  · rintro b hb
    cases hb
    rcases hmark with rfl | rfl <;> decide

theorem head?_places_append {s rest : Bytes} (h : IsPlaces s)
    (hrest : ∀ b, rest.head? = some b → Ascii.isDigit b = false ∧ b ≠ Ascii.dot) :
    ∀ b, (s ++ rest).head? = some b → Ascii.isDigit b = false := by
  rcases h with rfl | ⟨ds, rfl, -⟩
  · intro b hb
    exact (hrest b hb).1
  · rintro b hb
    cases hb
    decide

theorem isDigit_head_of_isWhole {s : Bytes} (h : IsWhole s) : ∃ b t, s = b :: t ∧ Ascii.isDigit b = true := by
  rcases h with rfl | ⟨hdigits, hne, -⟩
  · exact ⟨_, _, rfl, rfl⟩
  · obtain ⟨b, t, rfl⟩ := List.exists_cons_of_ne_nil hne
    exact ⟨b, t, rfl, hdigits b (by simp)⟩

/-! ### Literals -/

/-- A number literal behind its sign. -/
def size? (sign s : Bytes) : Option (Bytes × Bytes) := do
  let (whole, s) ← whole? s
  let (places, s) ← places? s
  let (exponent, s) ← exponent? s
  some (sign ++ whole ++ places ++ exponent, s)

theorem number?_minus (s : Bytes) : number? (Ascii.minus :: s) = size? [Ascii.minus] s := rfl

theorem number?_of_ne_minus {s : Bytes} (h : s.head? ≠ some Ascii.minus) : number? s = size? [] s := by
  unfold number?
  split
  next heq =>
    split at heq
    · exact absurd rfl h
    · cases heq
      rfl

/-- A literal is read whole, with whatever follows that cannot belong to it. -/
theorem IsNumber.number? {s rest : Bytes} (h : IsNumber s) (hrest : Terminates rest) :
    number? (s ++ rest) = some (s, rest) := by
  obtain ⟨sign, whole, places, scale, rfl, hsign, hwhole, hplaces, hscale⟩ := h
  have hafter := head?_scale_append hscale hrest
  have hsize : size? sign (whole ++ (places ++ (scale ++ rest)))
      = some (sign ++ whole ++ places ++ scale, rest) := by
    simp [size?, whole?_append hwhole (head?_places_append hplaces hafter), places?_append hplaces hafter,
      exponent?_append hscale hrest]
  rcases hsign with rfl | rfl
  · have hhead : (whole ++ (places ++ (scale ++ rest))).head? ≠ some Ascii.minus := by
      obtain ⟨b, t, rfl, hdigit⟩ := isDigit_head_of_isWhole hwhole
      rintro hb
      cases hb
      exact absurd hdigit (by decide)
    rw [← hsize, ← number?_of_ne_minus hhead]
    simp
  · rw [← hsize, ← number?_minus]
    simp

/-- A literal starts with a digit or a minus. -/
theorem IsNumber.head {s : Bytes} (h : IsNumber s) :
    ∃ b t, s = b :: t ∧ (Ascii.isDigit b = true ∨ b = Ascii.minus) := by
  obtain ⟨sign, whole, places, scale, rfl, hsign, hwhole, -⟩ := h
  rcases hsign with rfl | rfl
  · obtain ⟨b, t, rfl, hdigit⟩ := isDigit_head_of_isWhole hwhole
    exact ⟨b, _, rfl, .inl hdigit⟩
  · exact ⟨_, _, rfl, .inr rfl⟩

/-- The numeral of a natural number is the whole part of a literal. -/
theorem isWhole_ofNat (n : Nat) : IsWhole (Integer.ofNat n) := by
  rcases Nat.eq_zero_or_pos n with rfl | hpos
  · exact .inl rfl
  · refine .inr ⟨Integer.isDigits_ofNat n, Integer.ofNat_ne_nil n, ?_⟩
    obtain ⟨b, rest, hcons, -, hb⟩ := Integer.exists_cons_ofNat (Nat.ne_of_gt hpos)
    rw [hcons]
    exact fun h => hb (Option.some.inj h)

theorem isLiteral_ofInt64 (n : Int64) : IsLiteral (Integer.ofInt64 n) := by
  rw [Integer.ofInt64]
  cases n.toInt with
  | ofNat k => exact ⟨[], _, [], [], by simp [Integer.ofInt], .inl rfl, isWhole_ofNat k, .inl rfl, .inl rfl⟩
  | negSucc k =>
    exact ⟨[Ascii.minus], _, [], [], by simp [Integer.ofInt], .inr rfl, isWhole_ofNat (k + 1), .inl rfl, .inl rfl⟩

end Stopwatch.Wire
