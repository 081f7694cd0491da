import Mathlib.Data.List.TakeWhile
import Mathlib.Tactic.Common
import Stopwatch.Proofs.Values

/-!
The grammar of values on the wire, and that the reader takes exactly what it allows. Blanks may stand around every value
and key, items are separated by commas, and lists and tables stand inside each other up to a depth.
-/

namespace Stopwatch.Wire

/-! ### Blanks -/

/-- Blanks only. -/
def Blanks (s : Bytes) : Prop := ∀ b ∈ s, isBlank b = true

theorem blanks_nil : Blanks [] := List.forall_mem_nil _

theorem Blanks.append {s t : Bytes} (hs : Blanks s) (ht : Blanks t) : Blanks (s ++ t) :=
  List.forall_mem_append.mpr ⟨hs, ht⟩

theorem Blanks.skip {w : Bytes} (h : Blanks w) (rest : Bytes) : skipBlank (w ++ rest) = skipBlank rest :=
  List.dropWhile_append_of_pos h

/-- What is skipped are blanks. -/
theorem exists_blanks (s : Bytes) : ∃ w, Blanks w ∧ s = w ++ skipBlank s := by
  refine ⟨s.takeWhile isBlank, fun b hb => ?_, List.takeWhile_append_dropWhile.symm⟩
  exact List.mem_takeWhile_imp hb

theorem skipBlank_eq_nil_iff {s : Bytes} : skipBlank s = [] ↔ Blanks s := List.dropWhile_eq_nil_iff

/-- No blank belongs to a number. -/
theorem Blanks.terminates {w rest : Bytes} (h : Blanks w) (hrest : Terminates rest) : Terminates (w ++ rest) := by
  rcases w with _ | ⟨b, w⟩
  · exact hrest
  · rintro c hc
    cases hc
    have hblank := h b List.mem_cons_self
    simp only [isBlank, Bool.or_eq_true, beq_iff_eq] at hblank
    rcases hblank with ((rfl | rfl) | rfl) | rfl <;> decide

/-! ### Numbers -/

theorem digits?_eq_some {s ds rest : Bytes} (h : digits? s = some (ds, rest)) : s = ds ++ rest ∧ IsDigits ds ∧ ds ≠ [] := by
  rw [digits?] at h
  split at h
  · cases h
  · next hne =>
    cases h
    exact ⟨List.takeWhile_append_dropWhile.symm, fun b hb => List.mem_takeWhile_imp hb, by simpa using hne⟩

theorem whole?_eq_some {s whole rest : Bytes} (h : whole? s = some (whole, rest)) : s = whole ++ rest ∧ IsWhole whole := by
  unfold whole? at h
  split at h
  · cases h
    exact ⟨rfl, .inl rfl⟩
  · next hzero =>
    obtain ⟨rfl, hdigits, hne⟩ := digits?_eq_some h
    refine ⟨rfl, .inr ⟨hdigits, hne, fun hhead => ?_⟩⟩
    obtain ⟨b, ds, rfl⟩ := List.exists_cons_of_ne_nil hne
    cases hhead
    exact hzero (ds ++ rest) rfl

theorem places?_eq_some {s places rest : Bytes} (h : places? s = some (places, rest)) :
    s = places ++ rest ∧ IsPlaces places := by
  unfold places? at h
  split at h
  · obtain ⟨⟨ds, after⟩, hread, heq⟩ := Option.map_eq_some_iff.mp h
    cases heq
    obtain ⟨rfl, hdigits, hne⟩ := digits?_eq_some hread
    exact ⟨rfl, .inr ⟨ds, rfl, hdigits, hne⟩⟩
  · cases h
    exact ⟨rfl, .inl rfl⟩

theorem exponent?_eq_some {s scale rest : Bytes} (h : exponent? s = some (scale, rest)) :
    s = scale ++ rest ∧ IsScale scale := by
  unfold exponent? at h
  split at h
  · next b after =>
    split at h
    · next hmark =>
      simp only [Bool.or_eq_true, beq_iff_eq] at hmark
      split at h
      · next c after =>
        split at h
        · next hsign =>
          simp only [Bool.or_eq_true, beq_iff_eq] at hsign
          obtain ⟨⟨ds, after⟩, hread, heq⟩ := Option.map_eq_some_iff.mp h
          cases heq
          obtain ⟨rfl, hdigits⟩ := digits?_eq_some hread
          refine ⟨rfl, .inr ⟨b, [c], ds, rfl, hmark, .inr ?_, hdigits⟩⟩
          exact hsign.imp (fun h => by rw [h]) fun h => by rw [h]
        · obtain ⟨⟨ds, after⟩, hread, heq⟩ := Option.map_eq_some_iff.mp h
          cases heq
          obtain ⟨heq, hdigits⟩ := digits?_eq_some hread
          exact ⟨by rw [heq]; rfl, .inr ⟨b, [], ds, rfl, hmark, .inl rfl, hdigits⟩⟩
      · cases h
    · cases h
      exact ⟨rfl, .inl rfl⟩
  · cases h
    exact ⟨rfl, .inl rfl⟩

theorem size?_eq_some {sign s literal rest : Bytes} (h : size? sign s = some (literal, rest))
    (hsign : sign = [] ∨ sign = [Ascii.minus]) : sign ++ s = literal ++ rest ∧ IsNumber literal := by
  simp only [size?, bind, Option.bind_eq_some_iff] at h
  obtain ⟨⟨whole, s₁⟩, hwhole, ⟨places, s₂⟩, hplaces, ⟨scale, s₃⟩, hscale, heq⟩ := h
  cases heq
  obtain ⟨hs₁, hwhole⟩ := whole?_eq_some hwhole
  obtain ⟨hs₂, hplaces⟩ := places?_eq_some hplaces
  obtain ⟨hs₃, hscale⟩ := exponent?_eq_some hscale
  dsimp only at hs₂ hs₃
  exact ⟨by simp [hs₁, hs₂, hs₃], sign, whole, places, scale, rfl, hsign, hwhole, hplaces, hscale⟩

theorem number?_eq_some {s literal rest : Bytes} (h : number? s = some (literal, rest)) :
    s = literal ++ rest ∧ IsNumber literal := by
  by_cases hminus : s.head? = some Ascii.minus
  · obtain ⟨t, rfl⟩ : ∃ t, s = Ascii.minus :: t := List.head?_eq_some_iff.mp hminus
    rw [number?_minus] at h
    exact size?_eq_some h (.inr rfl)
  · rw [number?_of_ne_minus hminus] at h
    exact size?_eq_some h (.inl rfl)

/-! ### Texts -/

/-- A piece of a text before what follows it, and the octets that it stands for. -/
inductive Piece (after : Bytes) : Bytes → Bytes → Prop
  | plain {b : UInt8} (h : IsPlain b) : Piece after [b] [b]
  | letter {c v : UInt8} (h : escaped? c = some v) : Piece after [Ascii.backslash, c] [v]
  | unit {a b c d : UInt8} {n : Nat} (h : word? a b c d = some n) (halone : ¬ StartsPair n after) :
    Piece after [Ascii.backslash, 0x75, a, b, c, d] (charOf n)
  | pair {a b c d e f g h : UInt8} {n m : Nat} (hfirst : word? a b c d = some n) (hsecond : word? e f g h = some m)
    (hhigh : isHighSurrogate n = true) (hlow : isLowSurrogate m = true) :
    Piece after [Ascii.backslash, 0x75, a, b, c, d, Ascii.backslash, 0x75, e, f, g, h] (pairOf n m)

/-- What stands between the quotes of a text, and the octets that it stands for. -/
inductive Body : Bytes → Bytes → Prop
  | nil : Body [] []
  | cons {p o s t : Bytes} (h : Piece s p o) (rest : Body s t) : Body (p ++ s) (o ++ t)

/-- A piece stands for the same before anything that starts the same pairs. -/
theorem Piece.congr {after after' p o : Bytes} (h : Piece after p o)
    (hpair : ∀ {n}, StartsPair n after' → StartsPair n after) : Piece after' p o := by
  cases h with
  | plain h => exact .plain h
  | letter h => exact .letter h
  | unit h halone => exact .unit h (fun hstarts => halone (hpair hstarts))
  | pair hfirst hsecond hhigh hlow => exact .pair hfirst hsecond hhigh hlow

theorem Piece.readBody {after p o : Bytes} (h : Piece after p o) (seen : Bytes) :
    readBody (p ++ after) seen = readBody after (o.reverse ++ seen) := by
  cases h with
  | plain h => exact readBody_plain h after seen
  | letter h => exact readBody_escaped h after seen
  | unit h halone => exact readBody_unit h halone seen
  | pair hfirst hsecond hhigh hlow => exact readBody_pair hfirst hsecond hhigh hlow after seen

theorem Piece.length_pos {after p o : Bytes} (h : Piece after p o) : 0 < p.length := by
  cases h <;> simp

/-- The closing quote makes no pair. -/
theorem Body.startsPair {s t : Bytes} (h : Body s t) {n : Nat} {rest : Bytes}
    (hpair : StartsPair n (s ++ Ascii.doubleQuote :: rest)) : StartsPair n s := by
  obtain ⟨hhigh, e, f, g, h', after, m, heq, hword, hlow⟩ := hpair
  cases h with
  | nil => exact absurd (List.cons.inj heq).1.symm backslash_ne_doubleQuote
  | cons hpiece _ =>
    cases hpiece with
    | plain hplain => exact absurd (List.cons.inj heq).1 hplain.2.1
    | letter hletter =>
      rw [(List.cons.inj (List.cons.inj heq).2).1] at hletter
      cases hletter
    | unit _ _ =>
      cases heq
      exact ⟨hhigh, e, f, g, h', _, m, rfl, hword, hlow⟩
    | pair _ _ _ _ =>
      cases heq
      exact ⟨hhigh, e, f, g, h', _, m, rfl, hword, hlow⟩

theorem StartsPair.append {n : Nat} {s : Bytes} (h : StartsPair n s) (rest : Bytes) : StartsPair n (s ++ rest) := by
  obtain ⟨hhigh, e, f, g, h, after, m, rfl, hword, hlow⟩ := h
  exact ⟨hhigh, e, f, g, h, after ++ rest, m, rfl, hword, hlow⟩

theorem Body.readBody {s t : Bytes} (h : Body s t) (rest seen : Bytes) :
    readBody (s ++ Ascii.doubleQuote :: rest) seen = some (seen.reverse ++ t, rest) := by
  induction h generalizing seen with
  | nil => rw [List.nil_append, readBody_closing, List.append_nil]
  | cons hpiece hrest ih =>
    rw [List.append_assoc, (hpiece.congr hrest.startsPair).readBody, ih]
    simp

/-- What is read after a backslash begins with an escape. -/
theorem exists_piece_of_backslash {after seen : Bytes} {x : Bytes × Bytes}
    (h : readBody (Ascii.backslash :: after) seen = some x) :
    ∃ p o rest, Ascii.backslash :: after = p ++ rest ∧ Piece rest p o := by
  rw [Wire.readBody.eq_def] at h
  simp only [beq_iff_eq, backslash_ne_doubleQuote, if_false, if_true] at h
  split at h
  · cases h
  · next c after =>
    split at h
    · next v hletter => exact ⟨[Ascii.backslash, c], [v], after, rfl, .letter hletter⟩
    · split_ifs at h with hunit
      rw [bne_iff_ne, not_not] at hunit
      subst hunit
      split at h
      · next a b c d after =>
        split at h
        · cases h
        · next n hfirst =>
          by_cases hpair : StartsPair n after
          · obtain ⟨hhigh, e, f, g, k, after, m, rfl, hsecond, hlow⟩ := hpair
            exact ⟨_, _, after, rfl, .pair hfirst hsecond hhigh hlow⟩
          · exact ⟨_, _, after, rfl, .unit hfirst hpair⟩
      · cases h

/-- A text is read piece by piece, up to the closing quote. -/
theorem readBody_eq_some {s seen out rest : Bytes} (h : readBody s seen = some (out, rest)) :
    (s = Ascii.doubleQuote :: rest ∧ out = seen.reverse) ∨
    ∃ p o after, s = p ++ after ∧ Piece after p o ∧ readBody after (o.reverse ++ seen) = some (out, rest) := by
  have hstep : ∀ {p o after}, s = p ++ after → Piece after p o → ∃ p o after, s = p ++ after ∧ Piece after p o ∧
      readBody after (o.reverse ++ seen) = some (out, rest) := by
    intro p o after hs hpiece
    rw [hs, hpiece.readBody] at h
    exact ⟨p, o, after, hs, hpiece, h⟩
  cases s with
  | nil => cases h
  | cons b s =>
    by_cases hquote : b = Ascii.doubleQuote
    · rw [hquote, readBody_closing] at h
      cases h
      exact .inl ⟨by rw [hquote], rfl⟩
    · refine .inr ?_
      by_cases hback : b = Ascii.backslash
      · subst hback
        obtain ⟨p, o, after, hs, hpiece⟩ := exists_piece_of_backslash h
        exact hstep hs hpiece
      · have hcontrol : ¬ b < 0x20 := by
          intro hcontrol
          rw [Wire.readBody.eq_def] at h
          simp [hquote, hback, hcontrol] at h
        exact hstep (p := [b]) rfl (.plain ⟨hquote, hback, hcontrol⟩)

/-- What is read as a text is one: the body up to the closing quote stands for the octets read. -/
theorem exists_body {s seen out rest : Bytes} (h : readBody s seen = some (out, rest)) :
    ∃ body t, s = body ++ Ascii.doubleQuote :: rest ∧ Body body t ∧ out = seen.reverse ++ t := by
  induction hn : s.length using Nat.strong_induction_on generalizing s seen with
  | _ n ih =>
    obtain ⟨rfl, rfl⟩ | ⟨p, o, after, rfl, hpiece, hread⟩ := readBody_eq_some h
    · exact ⟨[], [], rfl, .nil, by rw [List.append_nil]⟩
    · have hpos := hpiece.length_pos
      rw [List.length_append] at hn
      obtain ⟨body, t, rfl, hbody, hout⟩ := ih after.length (by omega) hread rfl
      have hbefore : Piece body p o := hpiece.congr fun hstarts => hstarts.append _
      exact ⟨p ++ body, o ++ t, by rw [List.append_assoc], .cons hbefore hbody, by simp [hout]⟩

/-- A text in its quotes. -/
def Quoted (text s : Bytes) : Prop :=
  ∃ body t, s = Ascii.doubleQuote :: (body ++ [Ascii.doubleQuote]) ∧ Body body t ∧ text = t.repaired

theorem Quoted.readText {text s : Bytes} (h : Quoted text s) (rest : Bytes) :
    ∃ t, s ++ rest = Ascii.doubleQuote :: t ∧ readText t = some (text, rest) := by
  obtain ⟨body, t, rfl, hbody, rfl⟩ := h
  refine ⟨body ++ Ascii.doubleQuote :: rest, by simp, ?_⟩
  rw [Wire.readText, hbody.readBody]
  rfl

theorem quoted_of_readText {text s rest : Bytes} (h : readText s = some (text, rest)) :
    ∃ t, Ascii.doubleQuote :: s = t ++ rest ∧ Quoted text t := by
  obtain ⟨⟨out, rest'⟩, hread, heq⟩ := Option.map_eq_some_iff.mp h
  cases heq
  obtain ⟨body, t, rfl, hbody, hout⟩ := exists_body hread
  exact ⟨Ascii.doubleQuote :: (body ++ [Ascii.doubleQuote]), by simp, body, t, rfl, hbody, by rw [hout]; rfl⟩

/-! ### Values -/

section Grammar

variable {α : Type}

/-- With blanks on both sides. -/
def Padded (Part : α → Bytes → Prop) (x : α) (s : Bytes) : Prop :=
  ∃ before t after, s = before ++ t ++ after ∧ Blanks before ∧ Part x t ∧ Blanks after

/-- One part or more, with commas between them. -/
inductive Joined (Part : α → Bytes → Prop) : List α → Bytes → Prop
  | single {x : α} {s : Bytes} (h : Part x s) : Joined Part [x] s
  | cons {x : α} {xs : List α} {s t : Bytes} (h : Part x s) (rest : Joined Part xs t) :
    Joined Part (x :: xs) (s ++ Ascii.comma :: t)

/-- A key and its value, with a colon between them. -/
def Entry (Part : Value → Bytes → Prop) (e : Bytes × Value) (s : Bytes) : Prop :=
  ∃ key value, s = key ++ Ascii.colon :: value ∧ Padded Quoted e.1 key ∧ Padded Part e.2 value

/-- Between brackets: blanks, or parts that are joined. -/
def Enclosed (opening closing : UInt8) (Part : α → Bytes → Prop) (xs : List α) (s : Bytes) : Prop :=
  ∃ inner, s = opening :: (inner ++ [closing]) ∧ (xs = [] ∧ Blanks inner ∨ Joined Part xs inner)

end Grammar

/-- A value that is neither list nor table. -/
inductive Scalar : Value → Bytes → Prop
  | null : Scalar .null (utf8 "null")
  | yes : Scalar (.truth true) (utf8 "true")
  | no : Scalar (.truth false) (utf8 "false")
  | number {s : Bytes} (h : IsNumber s) : Scalar (.number s) s
  | text {text s : Bytes} (h : Quoted text s) : Scalar (.text text) s

/-- How a value is written, with lists and tables inside each other up to a depth. -/
def Written : Nat → Value → Bytes → Prop
  | 0, v, s => Scalar v s
  | depth + 1, v, s =>
    Scalar v s ∨
      (∃ items, v = .list items ∧ Enclosed Ascii.openBracket Ascii.closeBracket (Padded (Written depth)) items s) ∨
      ∃ entries, v = .table entries ∧ Enclosed Ascii.openBrace Ascii.closeBrace (Entry (Written depth)) entries s

/-! ### What is written is read -/

theorem Scalar.head {v : Value} {s : Bytes} (h : Scalar v s) :
    ∃ b t, s = b :: t ∧ isBlank b = false ∧ b ≠ Ascii.closeBracket := by
  cases h with
  | null | yes | no => exact ⟨_, _, rfl, by decide⟩
  | number h =>
    obtain ⟨b, t, rfl, -⟩ := h.head
    have hb := h.head_not_mem
    simp only [List.mem_cons, List.not_mem_nil, or_false, not_or] at hb
    exact ⟨b, t, rfl, by simp [isBlank, hb], hb.2.2.2.2.2.2.1⟩
  | text h =>
    obtain ⟨body, t, rfl, -⟩ := h
    exact ⟨_, _, rfl, by decide⟩

/-- A value begins with no blank and no closing bracket. -/
theorem Written.head {depth : Nat} {v : Value} {s : Bytes} (h : Written depth v s) :
    ∃ b t, s = b :: t ∧ isBlank b = false ∧ b ≠ Ascii.closeBracket := by
  cases depth with
  | zero => exact Scalar.head h
  | succ depth =>
    rcases h with h | ⟨items, -, inner, rfl, -⟩ | ⟨entries, -, inner, rfl, -⟩
    · exact h.head
    · exact ⟨_, _, rfl, by decide⟩
    · exact ⟨_, _, rfl, by decide⟩

theorem Written.skipBlank {depth : Nat} {v : Value} {s : Bytes} (h : Written depth v s) (rest : Bytes) :
    skipBlank (s ++ rest) = s ++ rest := by
  obtain ⟨b, t, rfl, hblank, -⟩ := h.head
  exact skipBlank_cons hblank _

theorem Quoted.skipBlank {text s : Bytes} (h : Quoted text s) (rest : Bytes) : skipBlank (s ++ rest) = s ++ rest := by
  obtain ⟨body, t, rfl, -⟩ := h
  rfl

theorem Scalar.readValue {v : Value} {s rest : Bytes} (h : Scalar v s) (hrest : Terminates rest) (fuel depth : Nat) :
    readValue (fuel + 1) depth (s ++ rest) = some (v, rest) := by
  cases h with
  | null => exact readValue_null rest fuel depth
  | yes => exact readValue_truth true rest fuel depth
  | no => exact readValue_truth false rest fuel depth
  | number h => exact readValue_literal h hrest fuel depth
  | text h =>
    obtain ⟨t, heq, hread⟩ := h.readText rest
    rw [heq]
    simp [Wire.readValue, hread]

/-- A reader of values that takes what is written at a depth, if it has two steps for each octet. -/
def Takes (depth : Nat) : Prop :=
  ∀ {v : Value} {s : Bytes}, Written depth v s → ∀ fuel, 2 * s.length ≤ fuel → ∀ {rest : Bytes}, Terminates rest →
    readValue fuel depth (s ++ rest) = some (v, rest)

theorem Joined.readItems {depth : Nat} (htakes : Takes depth) {items : List Value} {s : Bytes}
    (h : Joined (Padded (Written depth)) items s) {fuel : Nat} (hfuel : 2 * s.length < fuel) (rest : Bytes)
    (seen : List Value) :
    readItems fuel depth (skipBlank (s ++ Ascii.closeBracket :: rest)) seen = some (.list (seen.reverse ++ items), rest) := by
  induction h generalizing fuel seen with
  | single h =>
    obtain ⟨before, t, after, rfl, hbefore, ht, hafter⟩ := h
    obtain ⟨fuel, rfl⟩ : ∃ k, fuel = k + 1 := ⟨fuel - 1, by omega⟩
    simp only [List.length_append] at hfuel
    have hread := htakes ht fuel (by omega) (hafter.terminates (terminates_closeBracket rest))
    simp only [List.append_assoc]
    rw [hbefore.skip, ht.skipBlank, readItems_last hread (hafter.skip _), List.reverse_cons]
  | @cons v items s t h _ ih =>
    obtain ⟨before, s, after, rfl, hbefore, hs, hafter⟩ := h
    obtain ⟨fuel, rfl⟩ : ∃ k, fuel = k + 1 := ⟨fuel - 1, by omega⟩
    simp only [List.length_append, List.length_cons] at hfuel
    have hread := htakes hs fuel (by omega) (hafter.terminates (terminates_comma (t ++ Ascii.closeBracket :: rest)))
    simp only [List.append_assoc, List.cons_append]
    rw [hbefore.skip, hs.skipBlank, readItems_next hread (hafter.skip _), ih (by omega)]
    simp

theorem Joined.readEntries {depth : Nat} (htakes : Takes depth) {entries : List (Bytes × Value)} {s : Bytes}
    (h : Joined (Entry (Written depth)) entries s) {fuel : Nat} (hfuel : 2 * s.length < fuel) (rest : Bytes)
    (seen : List (Bytes × Value)) :
    readEntries fuel depth (skipBlank (s ++ Ascii.closeBrace :: rest)) seen
      = some (.table (seen.reverse ++ entries), rest) := by
  induction h generalizing fuel seen with
  | single h =>
    obtain ⟨key, value, rfl, ⟨w₁, k, w₂, rfl, hw₁, hk, hw₂⟩, w₃, t, w₄, rfl, hw₃, ht, hw₄⟩ := h
    obtain ⟨fuel, rfl⟩ : ∃ n, fuel = n + 1 := ⟨fuel - 1, by omega⟩
    simp only [List.length_append, List.length_cons] at hfuel
    have hread := htakes ht fuel (by omega) (hw₄.terminates (terminates_closeBrace rest))
    simp only [List.append_assoc, List.cons_append]
    obtain ⟨body, heq, htext⟩ := hk.readText (w₂ ++ Ascii.colon :: (w₃ ++ (t ++ (w₄ ++ Ascii.closeBrace :: rest))))
    rw [hw₁.skip, hk.skipBlank, heq, readEntries_last htext (hw₂.skip _) (by rw [hw₃.skip, ht.skipBlank]; exact hread)
      (hw₄.skip _), List.reverse_cons]
  | @cons e entries s u h _ ih =>
    obtain ⟨key, value, rfl, ⟨w₁, k, w₂, rfl, hw₁, hk, hw₂⟩, w₃, t, w₄, rfl, hw₃, ht, hw₄⟩ := h
    obtain ⟨fuel, rfl⟩ : ∃ n, fuel = n + 1 := ⟨fuel - 1, by omega⟩
    simp only [List.length_append, List.length_cons] at hfuel
    have hread := htakes ht fuel (by omega) (hw₄.terminates (terminates_comma (u ++ Ascii.closeBrace :: rest)))
    simp only [List.append_assoc, List.cons_append]
    obtain ⟨body, heq, htext⟩ :=
      hk.readText (w₂ ++ Ascii.colon :: (w₃ ++ (t ++ (w₄ ++ Ascii.comma :: (u ++ Ascii.closeBrace :: rest)))))
    rw [hw₁.skip, hk.skipBlank, heq, readEntries_next htext (hw₂.skip _) (by rw [hw₃.skip, ht.skipBlank]; exact hread)
      (hw₄.skip _), ih (by omega)]
    simp

theorem Joined.exists_first {α : Type} {Part : α → Bytes → Prop} {xs : List α} {s : Bytes} (h : Joined Part xs s) :
    ∃ x t after, Part x t ∧ s = t ++ after := by
  cases h with
  | single h => exact ⟨_, _, [], h, by rw [List.append_nil]⟩
  | cons h _ => exact ⟨_, _, _, h, rfl⟩

/-- Items begin as a value does, and entries with a quote, so neither is taken for an empty list or table. -/
theorem Joined.head?_items {depth : Nat} {items : List Value} {s : Bytes} (h : Joined (Padded (Written depth)) items s)
    (rest : Bytes) : (skipBlank (s ++ rest)).head? ≠ some Ascii.closeBracket := by
  obtain ⟨v, -, after', ⟨before, t, after, rfl, hbefore, ht, -⟩, rfl⟩ := h.exists_first
  obtain ⟨b, t, rfl, hblank, hne⟩ := ht.head
  simp only [List.append_assoc, List.cons_append]
  rw [hbefore.skip, skipBlank_cons hblank]
  simpa using hne

theorem Joined.head?_entries {depth : Nat} {entries : List (Bytes × Value)} {s : Bytes}
    (h : Joined (Entry (Written depth)) entries s) (rest : Bytes) :
    (skipBlank (s ++ rest)).head? ≠ some Ascii.closeBrace := by
  obtain ⟨e, -, after', ⟨-, value, rfl, ⟨before, k, after, rfl, hbefore, hk, -⟩, -⟩, rfl⟩ := h.exists_first
  obtain ⟨body, t, rfl, -⟩ := hk
  simp only [List.append_assoc, List.cons_append]
  rw [hbefore.skip, skipBlank_cons (by decide)]
  simp [doubleQuote_ne_closeBrace]

theorem takes (depth : Nat) : Takes depth := by
  induction depth with
  | zero =>
    intro v s h fuel hfuel rest hrest
    obtain ⟨b, t, rfl, -⟩ := h.head
    obtain ⟨fuel, rfl⟩ : ∃ k, fuel = k + 1 := ⟨fuel - 1, by rw [List.length_cons] at hfuel; omega⟩
    exact Scalar.readValue h hrest fuel 0
  | succ depth ih =>
    intro v s h fuel hfuel rest hrest
    obtain ⟨fuel, rfl⟩ : ∃ k, fuel = k + 1 := by
      obtain ⟨b, t, rfl, -⟩ := h.head
      exact ⟨fuel - 1, by rw [List.length_cons] at hfuel; omega⟩
    rcases h with h | ⟨items, rfl, inner, rfl, h⟩ | ⟨entries, rfl, inner, rfl, h⟩
    · exact h.readValue hrest fuel (depth + 1)
    · simp only [List.length_cons, List.length_append, List.length_nil] at hfuel
      simp only [List.cons_append, List.append_assoc, List.nil_append]
      rcases h with ⟨rfl, hblanks⟩ | h
      · exact readValue_emptyList (hblanks.skip _)
      · rw [readValue_openBracket (h.head?_items _), h.readItems ih (by omega)]
        rfl
    · simp only [List.length_cons, List.length_append, List.length_nil] at hfuel
      simp only [List.cons_append, List.append_assoc, List.nil_append]
      rcases h with ⟨rfl, hblanks⟩ | h
      · exact readValue_emptyTable (hblanks.skip _)
      · rw [readValue_openBrace (h.head?_entries _), h.readEntries ih (by omega)]
        rfl

/-! ### What is read is written -/

theorem after?_eq_some {word s rest : Bytes} (h : after? word s = some rest) : s = word ++ rest := by
  rw [after?] at h
  split at h
  · next hstart =>
    cases h
    obtain ⟨t, rfl⟩ := List.isPrefixOf_iff_prefix.mp hstart
    rw [List.drop_left]
  · cases h

/-- A fixed word is read as the value that it names. -/
theorem exists_word {word s rest : Bytes} {v w : Value}
    (h : (after? word s).map (fun rest => (w, rest)) = some (v, rest)) (hword : Scalar w word) :
    ∃ t, s = t ++ rest ∧ Scalar v t := by
  obtain ⟨rest', hafter, heq⟩ := Option.map_eq_some_iff.mp h
  cases heq
  exact ⟨word, after?_eq_some hafter, hword⟩

section Steps

variable {fuel depth : Nat} {s rest : Bytes} {out : Value}

theorem readValue_eq_some (h : readValue (fuel + 1) depth s = some (out, rest)) :
    (∃ t, s = t ++ rest ∧ Scalar out t) ∨
    (∃ inner d, s = Ascii.openBracket :: inner ∧ depth = d + 1 ∧
      (skipBlank inner = Ascii.closeBracket :: rest ∧ out = .list [] ∨
        readItems fuel d (skipBlank inner) [] = some (out, rest))) ∨
    ∃ inner d, s = Ascii.openBrace :: inner ∧ depth = d + 1 ∧
      (skipBlank inner = Ascii.closeBrace :: rest ∧ out = .table [] ∨
        readEntries fuel d (skipBlank inner) [] = some (out, rest)) := by
  rw [Wire.readValue.eq_def] at h
  dsimp only at h
  split at h
  · cases h
  · next b s =>
    split_ifs at h with hquote hlist hdeep htable hdeep hnull hyes hno
    · obtain rfl := eq_of_beq hquote
      obtain ⟨⟨text, rest'⟩, htext, heq⟩ := Option.map_eq_some_iff.mp h
      cases heq
      obtain ⟨t, hs, hquoted⟩ := quoted_of_readText htext
      exact .inl ⟨t, hs, .text hquoted⟩
    · obtain rfl := eq_of_beq hlist
      refine .inr (.inl ⟨s, depth - 1, rfl, by omega, ?_⟩)
      split at h
      · next hclose =>
        cases h
        exact .inl ⟨hclose, rfl⟩
      · exact .inr h
    · obtain rfl := eq_of_beq htable
      refine .inr (.inr ⟨s, depth - 1, rfl, by omega, ?_⟩)
      split at h
      · next hclose =>
        cases h
        exact .inl ⟨hclose, rfl⟩
      · exact .inr h
    · exact .inl (exists_word h .null)
    · exact .inl (exists_word h .yes)
    · exact .inl (exists_word h .no)
    · obtain ⟨⟨literal, rest'⟩, hnumber, heq⟩ := Option.map_eq_some_iff.mp h
      cases heq
      obtain ⟨hs, hliteral⟩ := number?_eq_some hnumber
      exact .inl ⟨literal, hs, .number hliteral⟩

theorem readItems_eq_some {seen : List Value} (h : readItems (fuel + 1) depth s seen = some (out, rest)) :
    ∃ v after, readValue fuel depth s = some (v, after) ∧
      (skipBlank after = Ascii.closeBracket :: rest ∧ out = .list (v :: seen).reverse ∨
        ∃ next, skipBlank after = Ascii.comma :: next ∧
          readItems fuel depth (skipBlank next) (v :: seen) = some (out, rest)) := by
  rw [Wire.readItems] at h
  split at h
  · cases h
  · next v after hread =>
    refine ⟨v, after, hread, ?_⟩
    split at h
    · next heq =>
      cases h
      exact .inl ⟨heq, rfl⟩
    · next next heq => exact .inr ⟨next, heq, h⟩
    · cases h

theorem readEntries_eq_some {seen : List (Bytes × Value)} (h : readEntries (fuel + 1) depth s seen = some (out, rest)) :
    ∃ body key colon value v after, s = Ascii.doubleQuote :: body ∧ readText body = some (key, colon) ∧
      skipBlank colon = Ascii.colon :: value ∧ readValue fuel depth (skipBlank value) = some (v, after) ∧
      (skipBlank after = Ascii.closeBrace :: rest ∧ out = .table ((key, v) :: seen).reverse ∨
        ∃ next, skipBlank after = Ascii.comma :: next ∧
          readEntries fuel depth (skipBlank next) ((key, v) :: seen) = some (out, rest)) := by
  unfold Wire.readEntries at h
  split at h
  · next body =>
    split at h
    · cases h
    · next key colon htext =>
      split at h
      · next value hcolon =>
        split at h
        · cases h
        · next v after hread =>
          refine ⟨body, key, colon, value, v, after, rfl, htext, hcolon, hread, ?_⟩
          split at h
          · next heq =>
            cases h
            exact .inl ⟨heq, rfl⟩
          · next next heq => exact .inr ⟨next, heq, h⟩
          · cases h
      · cases h
  · cases h

end Steps

theorem Joined.pad {α : Type} {Part : α → Bytes → Prop} (hpad : ∀ {x s w}, Blanks w → Part x s → Part x (w ++ s))
    {w : Bytes} (hw : Blanks w) {xs : List α} {s : Bytes} (h : Joined Part xs s) : Joined Part xs (w ++ s) := by
  cases h with
  | single h => exact .single (hpad hw h)
  | cons h rest =>
    rw [← List.append_assoc]
    exact .cons (hpad hw h) rest

theorem Padded.pad {α : Type} {Part : α → Bytes → Prop} {x : α} {s w : Bytes} (hw : Blanks w) (h : Padded Part x s) :
    Padded Part x (w ++ s) := by
  obtain ⟨before, t, after, rfl, hbefore, ht, hafter⟩ := h
  exact ⟨w ++ before, t, after, by simp, hw.append hbefore, ht, hafter⟩

theorem Entry.pad {Part : Value → Bytes → Prop} {e : Bytes × Value} {s w : Bytes} (hw : Blanks w) (h : Entry Part e s) :
    Entry Part e (w ++ s) := by
  obtain ⟨key, value, rfl, hkey, hvalue⟩ := h
  exact ⟨w ++ key, value, by simp, hkey.pad hw, hvalue⟩

theorem exists_enclosed_nil {α : Type} {Part : α → Bytes → Prop} (opening : UInt8) {closing : UInt8} {s rest : Bytes}
    (h : skipBlank s = closing :: rest) : ∃ t, opening :: s = t ++ rest ∧ Enclosed opening closing Part [] t := by
  obtain ⟨w, hw, hs⟩ := exists_blanks s
  exact ⟨opening :: (w ++ [closing]), by rw [hs, h]; simp, w, rfl, .inl ⟨rfl, hw⟩⟩

theorem Joined.exists_enclosed {α : Type} {Part : α → Bytes → Prop}
    (hpad : ∀ {x s w}, Blanks w → Part x s → Part x (w ++ s)) (opening : UInt8) {closing : UInt8} {xs : List α}
    {s t rest : Bytes} (h : skipBlank s = t ++ closing :: rest) (hjoined : Joined Part xs t) :
    ∃ t, opening :: s = t ++ rest ∧ Enclosed opening closing Part xs t := by
  obtain ⟨w, hw, hs⟩ := exists_blanks s
  exact ⟨opening :: (w ++ t ++ [closing]), by rw [hs, h]; simp, w ++ t, rfl, .inr (hjoined.pad hpad hw)⟩

/-- What a reader of values takes is written as the grammar says. -/
def ValueSound (fuel : Nat) : Prop :=
  ∀ {depth s v rest}, readValue fuel depth s = some (v, rest) → ∃ t, s = t ++ rest ∧ Written depth v t

def ItemsSound (fuel : Nat) : Prop :=
  ∀ {depth s seen v rest}, readItems fuel depth s seen = some (v, rest) →
    ∃ items t, v = .list (seen.reverse ++ items) ∧ s = t ++ Ascii.closeBracket :: rest ∧
      Joined (Padded (Written depth)) items t

def EntriesSound (fuel : Nat) : Prop :=
  ∀ {depth s seen v rest}, readEntries fuel depth s seen = some (v, rest) →
    ∃ entries t, v = .table (seen.reverse ++ entries) ∧ s = t ++ Ascii.closeBrace :: rest ∧
      Joined (Entry (Written depth)) entries t

theorem itemsSound_succ {fuel : Nat} (hvalue : ValueSound fuel) (hitems : ItemsSound fuel) : ItemsSound (fuel + 1) := by
  intro depth s seen out rest h
  obtain ⟨v, after, hread, hnext⟩ := readItems_eq_some h
  obtain ⟨t, rfl, ht⟩ := hvalue hread
  obtain ⟨w, hw, hafter⟩ := exists_blanks after
  have hpart : Padded (Written depth) v (t ++ w) := ⟨[], t, w, rfl, blanks_nil, ht, hw⟩
  rcases hnext with ⟨hclose, rfl⟩ | ⟨next, hcomma, hrest⟩
  · exact ⟨[v], t ++ w, by simp, by rw [hafter, hclose]; simp, .single hpart⟩
  · obtain ⟨items, t', rfl, hnext, hjoined⟩ := hitems hrest
    obtain ⟨w', hw', hskip⟩ := exists_blanks next
    refine ⟨v :: items, t ++ w ++ Ascii.comma :: (w' ++ t'), by simp, ?_, .cons hpart (hjoined.pad Padded.pad hw')⟩
    rw [hafter, hcomma, hskip, hnext]
    simp

theorem entriesSound_succ {fuel : Nat} (hvalue : ValueSound fuel) (hentries : EntriesSound fuel) :
    EntriesSound (fuel + 1) := by
  intro depth s seen out rest h
  obtain ⟨body, key, colon, value, v, after, rfl, htext, hcolon, hread, hnext⟩ := readEntries_eq_some h
  obtain ⟨k, hk, hquoted⟩ := quoted_of_readText htext
  obtain ⟨w₁, hw₁, hbefore⟩ := exists_blanks colon
  obtain ⟨w₂, hw₂, hbehind⟩ := exists_blanks value
  obtain ⟨t, hvalueEq, ht⟩ := hvalue hread
  obtain ⟨w₃, hw₃, hafter⟩ := exists_blanks after
  have hpart : Entry (Written depth) (key, v) (k ++ w₁ ++ Ascii.colon :: (w₂ ++ t ++ w₃)) :=
    ⟨k ++ w₁, w₂ ++ t ++ w₃, rfl, ⟨[], k, w₁, rfl, blanks_nil, hquoted, hw₁⟩, ⟨w₂, t, w₃, rfl, hw₂, ht, hw₃⟩⟩
  rw [hk, hbefore, hcolon, hbehind, hvalueEq, hafter]
  rcases hnext with ⟨hclose, rfl⟩ | ⟨next, hcomma, hrest⟩
  · exact ⟨[(key, v)], _, by simp, by rw [hclose]; simp, .single hpart⟩
  · obtain ⟨entries, t', rfl, hnext, hjoined⟩ := hentries hrest
    obtain ⟨w', hw', hskip⟩ := exists_blanks next
    refine ⟨(key, v) :: entries, _, by simp, ?_, .cons hpart (hjoined.pad Entry.pad hw')⟩
    rw [hcomma, hskip, hnext]
    simp

theorem Scalar.written {v : Value} {s : Bytes} (h : Scalar v s) (depth : Nat) : Written depth v s := by
  cases depth with
  | zero => exact h
  | succ depth => exact .inl h

theorem valueSound_succ {fuel : Nat} (hitems : ItemsSound fuel) (hentries : EntriesSound fuel) : ValueSound (fuel + 1) := by
  intro depth s v rest h
  obtain ⟨t, hs, hscalar⟩ | ⟨inner, depth, rfl, rfl, hinner⟩ | ⟨inner, depth, rfl, rfl, hinner⟩ := readValue_eq_some h
  · exact ⟨t, hs, hscalar.written depth⟩
  · obtain ⟨hclose, rfl⟩ | hread := hinner
    · obtain ⟨t, ht, henclosed⟩ := exists_enclosed_nil Ascii.openBracket hclose
      exact ⟨t, ht, .inr (.inl ⟨[], rfl, henclosed⟩)⟩
    · obtain ⟨items, t, rfl, hclose, hjoined⟩ := hitems hread
      obtain ⟨t, ht, henclosed⟩ := hjoined.exists_enclosed Padded.pad Ascii.openBracket hclose
      exact ⟨t, ht, .inr (.inl ⟨items, rfl, henclosed⟩)⟩
  · obtain ⟨hclose, rfl⟩ | hread := hinner
    · obtain ⟨t, ht, henclosed⟩ := exists_enclosed_nil Ascii.openBrace hclose
      exact ⟨t, ht, .inr (.inr ⟨[], rfl, henclosed⟩)⟩
    · obtain ⟨entries, t, rfl, hclose, hjoined⟩ := hentries hread
      obtain ⟨t, ht, henclosed⟩ := hjoined.exists_enclosed Entry.pad Ascii.openBrace hclose
      exact ⟨t, ht, .inr (.inr ⟨entries, rfl, henclosed⟩)⟩

/-- One induction carries the three readers, since each calls the others with a step less. -/
theorem readers_sound (fuel : Nat) : ValueSound fuel ∧ ItemsSound fuel ∧ EntriesSound fuel := by
  induction fuel with
  | zero =>
    refine ⟨?_, ?_, ?_⟩
    · intro depth s v rest h
      rw [Wire.readValue] at h
      cases h
    · intro depth s seen v rest h
      rw [Wire.readItems] at h
      cases h
    · intro depth s seen v rest h
      rw [Wire.readEntries] at h
      cases h
  | succ fuel ih =>
    obtain ⟨hvalue, hitems, hentries⟩ := ih
    exact ⟨valueSound_succ hitems hentries, itemsSound_succ hvalue hitems, entriesSound_succ hvalue hentries⟩

/-- A text holds a value exactly if it is written so, with nothing but blanks around it. -/
theorem parse_eq_some_iff {s : Bytes} {v : Value} : Value.parse s = some v ↔ Padded (Written maxDepth) v s := by
  constructor
  · intro h
    rw [Value.parse] at h
    split at h
    · next v' rest hread =>
      split at h
      · next hend =>
        cases h
        obtain ⟨t, hskip, ht⟩ := (readers_sound _).1 hread
        obtain ⟨w, hw, hs⟩ := exists_blanks s
        refine ⟨w, t, rest, ?_, hw, ht, skipBlank_eq_nil_iff.mp (List.isEmpty_iff.mp hend)⟩
        rw [List.append_assoc, ← hskip, ← hs]
      · cases h
    · cases h
  · rintro ⟨before, t, after, rfl, hbefore, ht, hafter⟩
    have hread := takes maxDepth ht (2 * (before ++ t ++ after).length + 2) (by simp only [List.length_append]; omega)
      (hafter.terminates terminates_nil)
    rw [List.append_nil] at hread
    rw [Value.parse, List.append_assoc, hbefore.skip, ht.skipBlank, ← List.append_assoc, hread]
    simp [skipBlank_eq_nil_iff.mpr hafter]

end Stopwatch.Wire
