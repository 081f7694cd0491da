import Mathlib.Data.List.DropRight
import Stopwatch.Bench.Output
import Stopwatch.Proofs.Utf8

/-!
White space at the ends of a text. A text can be cut before any octet that continues no character, so the characters at
its right end do not depend on what stands in front of them, well-formed or not. Trimming therefore finds the one core of
a text: white space around a part that neither begins nor ends with white space.
-/

namespace Stopwatch

/-! ### Cutting a text between glyphs -/

namespace Utf8

/-- Nothing at the beginning that could continue a character. -/
def StartsFresh (s : Bytes) : Prop := ∀ b, s.head? = some b → isTail b = false

theorem two?_of_not_isTail {a b : UInt8} (h : isTail b = false) : two? a b = none := by
  simp [two?, h]

theorem three?_of_not_isTail {a b c : UInt8} (h : isTail b = false ∨ isTail c = false) : three? a b c = none := by
  rcases h with h | h <;> simp [three?, h]

theorem four?_of_not_isTail {a b c d : UInt8} (h : isTail b = false ∨ isTail c = false ∨ isTail d = false) :
    four? a b c d = none := by
  rcases h with h | h | h <;> simp [four?, h]

/-- An octet with which no character begins stands for itself. -/
theorem read_octet {a : UInt8} {s : Bytes} (ha : ¬ a < 0x80) (htwo : ∀ b r, s = b :: r → two? a b = none)
    (hthree : ∀ b c r, s = b :: c :: r → three? a b c = none)
    (hfour : ∀ b c d r, s = b :: c :: d :: r → four? a b c d = none) (seen : List Glyph) :
    read (a :: s) seen = read s (.octet a :: seen) := by
  rw [read.eq_def]
  rcases s with _ | ⟨b, _ | ⟨c, _ | ⟨d, r⟩⟩⟩
  · simp [ha]
  · simp [ha, htwo b _ rfl]
  · simp [ha, htwo b _ rfl, hthree b c _ rfl]
  · simp [ha, htwo b _ rfl, hthree b c _ rfl, hfour b c d _ rfl]

/-- What is read before a fresh start does not depend on what follows. -/
theorem read_append {t : Bytes} (ht : StartsFresh t) (s : Bytes) (seen : List Glyph) :
    read (s ++ t) seen = read t (read s seen).reverse := by
  fun_induction read s seen with
  | case1 seen => simp
  | case2 a r seen h ih =>
    rw [← ih, List.cons_append, read.eq_def]
    simp [h]
  | case4 a seen h b r c hc ih =>
    rw [← ih, List.cons_append, List.cons_append, read.eq_def]
    simp [h, hc]
  | case6 a seen h b hb d r c hc ih =>
    rw [← ih, List.cons_append, List.cons_append, List.cons_append, read.eq_def]
    simp [h, hb, hc]
  | case8 a seen h b hb d hd e r c hc ih =>
    rw [← ih, List.cons_append, List.cons_append, List.cons_append, List.cons_append, read.eq_def]
    simp [h, hb, hd, hc]
  -- a character that the rest could complete would need a tail where the rest begins
  | case3 a seen h ih =>
    rw [← ih, List.cons_append, read_octet h]
    · rintro b r rfl
      exact two?_of_not_isTail (ht b rfl)
    · rintro b c r rfl
      exact three?_of_not_isTail (.inl (ht b rfl))
    · rintro b c d r rfl
      exact four?_of_not_isTail (.inl (ht b rfl))
  | case5 a seen h b hb ih =>
    rw [← ih, List.cons_append, read_octet h]
    · rintro _ _ ⟨⟩
      exact hb
    · rintro _ c r hr
      obtain ⟨rfl, rfl⟩ := List.cons.inj hr
      exact three?_of_not_isTail (.inr (ht c rfl))
    · rintro _ c d r hr
      obtain ⟨rfl, rfl⟩ := List.cons.inj hr
      exact four?_of_not_isTail (.inr (.inl (ht c rfl)))
  | case7 a seen h b hb d hd ih =>
    rw [← ih, List.cons_append, read_octet h]
    · rintro _ _ ⟨⟩
      exact hb
    · rintro _ _ _ ⟨⟩
      exact hd
    · rintro _ _ e r hr
      obtain ⟨rfl, hrest⟩ := List.cons.inj hr
      obtain ⟨rfl, rfl⟩ := List.cons.inj hrest
      exact four?_of_not_isTail (.inr (.inr (ht e rfl)))
  | case9 a seen h b hb d hd e r he ih =>
    rw [← ih, List.cons_append, read_octet h]
    · rintro _ _ ⟨⟩
      exact hb
    · rintro _ _ _ ⟨⟩
      exact hd
    · rintro _ _ _ _ ⟨⟩
      exact he

/-- Glyphs that were read before stay in front. -/
theorem read_append_seen (before : List Glyph) (s : Bytes) (seen : List Glyph) :
    read s (seen ++ before) = before.reverse ++ read s seen := by
  fun_induction read s seen with
  | case1 seen => simp [read]
  | case2 a r seen h ih =>
    rw [← ih, read.eq_def]
    simp [h]
  | case3 a seen h ih =>
    rw [← ih, read_octet h] <;> simp
  | case4 a seen h b r c hc ih =>
    rw [← ih, read.eq_def]
    simp [h, hc]
  | case5 a seen h b hb ih =>
    rw [← ih, read.eq_def]
    simp [h, hb]
  | case6 a seen h b hb d r c hc ih =>
    rw [← ih, read.eq_def]
    simp [h, hb, hc]
  | case7 a seen h b hb d hd ih =>
    rw [← ih, read.eq_def]
    simp [h, hb, hd]
  | case8 a seen h b hb d hd e r c hc ih =>
    rw [← ih, read.eq_def]
    simp [h, hb, hd, hc]
  | case9 a seen h b hb d hd e r he ih =>
    rw [← ih, read.eq_def]
    simp [h, hb, hd, he]

/-- A character begins with no tail. -/
theorem exists_head_encode (c : Char) : ∃ b rest, encode c = b :: rest ∧ isTail b = false := by
  have hmax := toNat_lt c
  have hlead : ∀ k, k < 0x80 ∨ 0xc0 ≤ k → k < 256 → isTail k.toUInt8 = false := by
    intro k hk hlt
    rw [Bool.eq_false_iff, Ne, isTail_eq_true_iff, toNat_toUInt8 hlt]
    omega
  rw [encode]
  split
  · exact ⟨_, _, rfl, hlead _ (by omega) (by omega)⟩
  · split
    · exact ⟨_, _, rfl, hlead _ (by omega) (by omega)⟩
    · split
      · exact ⟨_, _, rfl, hlead _ (by omega) (by omega)⟩
      · exact ⟨_, _, rfl, hlead _ (by omega) (by omega)⟩

theorem encode_ne_nil (c : Char) : encode c ≠ [] := by
  obtain ⟨b, rest, henc, -⟩ := exists_head_encode c
  rw [henc]
  exact List.cons_ne_nil b rest

end Utf8

namespace Bytes

theorem startsFresh_ofChars (cs : List Char) : Utf8.StartsFresh (ofChars cs) := by
  rcases cs with _ | ⟨c, cs⟩
  · exact fun b hb => absurd hb (Option.some_ne_none b).symm
  · obtain ⟨a, rest, henc, ha⟩ := Utf8.exists_head_encode c
    intro b hb
    rw [ofChars, List.flatMap_cons, henc] at hb
    cases hb
    exact ha

theorem glyphs_append {s t : Bytes} (h : Utf8.StartsFresh t) : (s ++ t).glyphs = s.glyphs ++ t.glyphs := by
  rw [glyphs, Utf8.read_append h, ← List.nil_append (Utf8.read s []).reverse, Utf8.read_append_seen,
    List.reverse_reverse]
  rfl

/-- Characters in front of any text. -/
theorem glyphs_ofChars_append (cs : List Char) (s : Bytes) : (ofChars cs ++ s).glyphs = cs.map .char ++ s.glyphs := by
  induction cs with
  | nil => rfl
  | cons c cs ih =>
    rw [ofChars, List.flatMap_cons, List.append_assoc, glyphs, Utf8.read_encode, ← ofChars,
      ← List.nil_append [Glyph.char c], Utf8.read_append_seen, ← glyphs, ih]
    rfl

/-- Characters behind any text. -/
theorem glyphs_append_ofChars (s : Bytes) (cs : List Char) : (s ++ ofChars cs).glyphs = s.glyphs ++ cs.map .char := by
  rw [glyphs_append (startsFresh_ofChars cs), glyphs_ofChars]

end Bytes

/-! ### Glyphs without blanks at the ends -/

/-- No blank at either end. -/
structure BareEnds (gs : List Glyph) : Prop where
  head : ∀ g, gs.head? = some g → g.blank = false
  last : ∀ g, gs.getLast? = some g → g.blank = false

theorem trimGlyphs_eq (gs : List Glyph) : trimGlyphs gs = (gs.dropWhile Glyph.blank).rdropWhile Glyph.blank := rfl

theorem bareEnds_trimGlyphs (gs : List Glyph) : BareEnds (trimGlyphs gs) := by
  constructor
  · intro g hg
    obtain ⟨back, hback⟩ := List.rdropWhile_prefix Glyph.blank (gs.dropWhile Glyph.blank)
    have hhead : (gs.dropWhile Glyph.blank).head? = some g := by
      rw [← hback, List.head?_append, ← trimGlyphs_eq, hg]
      rfl
    have hnot := List.head?_dropWhile_not Glyph.blank gs
    rwa [hhead] at hnot
  · intro g hg
    obtain ⟨hne, rfl⟩ := List.mem_getLast?_eq_getLast hg
    exact Bool.eq_false_iff.mpr (List.rdropWhile_last_not Glyph.blank _ hne)

/-- Trimming takes blanks off both ends. -/
theorem exists_trimGlyphs (gs : List Glyph) :
    ∃ front back, gs = front ++ trimGlyphs gs ++ back ∧ (∀ g ∈ front, g.blank = true) ∧ ∀ g ∈ back, g.blank = true := by
  refine ⟨gs.takeWhile Glyph.blank, (gs.dropWhile Glyph.blank).rtakeWhile Glyph.blank, ?_, ?_, ?_⟩
  · rw [List.append_assoc, trimGlyphs_eq, List.rdropWhile_append_rtakeWhile, List.takeWhile_append_dropWhile]
  · exact fun g hg => List.mem_takeWhile_imp hg
  · exact fun g hg => List.mem_rtakeWhile_imp hg

/-- Whatever blanks stand around it, what has bare ends is found again. -/
theorem trimGlyphs_append {front gs back : List Glyph} (hfront : ∀ g ∈ front, g.blank = true) (h : BareEnds gs)
    (hback : ∀ g ∈ back, g.blank = true) : trimGlyphs (front ++ gs ++ back) = gs := by
  have hreverse : ∀ g ∈ back.reverse, g.blank = true := fun g hg => hback g (List.mem_reverse.mp hg)
  have hleft : (gs ++ back).dropWhile Glyph.blank = if gs = [] then [] else gs ++ back := by
    rcases gs with _ | ⟨g, gs⟩
    · exact List.dropWhile_eq_nil_iff.mpr hback
    · simp [h.head g rfl]
  rw [trimGlyphs, List.append_assoc, List.dropWhile_append_of_pos hfront, hleft]
  rcases List.eq_nil_or_concat gs with rfl | ⟨before, last, rfl⟩
  · rfl
  · have hlast : last.blank = false := h.last last (by simp)
    rw [if_neg (by simp), List.reverse_append, List.dropWhile_append_of_pos hreverse]
    simp [hlast]

/-! ### The core of a text -/

namespace Bytes

/-- White space throughout. -/
def IsBlank (s : Bytes) : Prop := ∃ cs : List Char, (∀ c ∈ cs, isBlank c = true) ∧ s = ofChars cs

/-- Neither begins nor ends with a white-space character. -/
def IsTrimmed (s : Bytes) : Prop := ∀ c : Char, isBlank c = true → ¬ Utf8.encode c <+: s ∧ ¬ Utf8.encode c <:+ s

/-- White space around a part that neither begins nor ends with white space. -/
structure IsCore (core s : Bytes) : Prop where
  trimmed : IsTrimmed core
  around : ∃ u v, IsBlank u ∧ IsBlank v ∧ s = u ++ core ++ v

theorem isBlank_nil : IsBlank [] := ⟨[], List.forall_mem_nil _, rfl⟩

theorem IsBlank.append {s t : Bytes} : IsBlank s → IsBlank t → IsBlank (s ++ t) := by
  rintro ⟨cs, hcs, rfl⟩ ⟨ds, hds, rfl⟩
  exact ⟨cs ++ ds, List.forall_mem_append.mpr ⟨hcs, hds⟩, by simp [ofChars]⟩

theorem isTrimmed_nil : IsTrimmed [] := by
  intro c _
  rw [List.prefix_nil, List.suffix_nil]
  exact ⟨Utf8.encode_ne_nil c, Utf8.encode_ne_nil c⟩

/-- Blank glyphs are characters. -/
theorem exists_chars_of_blank {gs : List Glyph} (h : ∀ g ∈ gs, g.blank = true) :
    ∃ cs : List Char, gs = cs.map .char ∧ ∀ c ∈ cs, isBlank c = true := by
  induction gs with
  | nil => exact ⟨[], rfl, List.forall_mem_nil _⟩
  | cons g gs ih =>
    obtain ⟨hg, hgs⟩ := List.forall_mem_cons.mp h
    obtain ⟨cs, rfl, hcs⟩ := ih hgs
    cases g with
    | char c => exact ⟨c :: cs, rfl, List.forall_mem_cons.mpr ⟨hg, hcs⟩⟩
    | octet b => cases hg

theorem ofGlyphs_append (gs hs : List Glyph) : ofGlyphs (gs ++ hs) = ofGlyphs gs ++ ofGlyphs hs := List.flatMap_append

theorem ofGlyphs_map_char (cs : List Char) : ofGlyphs (cs.map .char) = ofChars cs := by
  rw [ofGlyphs, List.flatMap_map]
  rfl

/-- The glyphs of a text that has no white space at its ends. -/
theorem IsTrimmed.bareEnds {s : Bytes} (h : IsTrimmed s) : BareEnds s.glyphs := by
  have hspell := ofGlyphs_glyphs s
  constructor
  · intro g hg
    cases g with
    | octet b => rfl
    | char c =>
      obtain ⟨rest, hrest⟩ := List.head?_eq_some_iff.mp hg
      rw [hrest] at hspell
      exact Bool.eq_false_iff.mpr fun hc => (h c hc).1 ⟨ofGlyphs rest, hspell⟩
  · intro g hg
    cases g with
    | octet b => rfl
    | char c =>
      obtain ⟨rest, hrest⟩ := List.getLast?_eq_some_iff.mp hg
      rw [hrest, ofGlyphs_append] at hspell
      exact Bool.eq_false_iff.mpr fun hc => (h c hc).2 ⟨ofGlyphs rest, by simpa [ofGlyphs, Glyph.bytes] using hspell⟩

/-- Whatever white space stands around it, a core is found again. -/
theorem IsCore.trim {core s : Bytes} (h : IsCore core s) : s.trim = core := by
  obtain ⟨u, v, ⟨cs, hcs, rfl⟩, ⟨ds, hds, rfl⟩, rfl⟩ := h.around
  have hchars : ∀ cs : List Char, (∀ c ∈ cs, isBlank c = true) → ∀ g ∈ cs.map Glyph.char, g.blank = true := by
    intro cs hcs g hg
    obtain ⟨c, hc, rfl⟩ := List.mem_map.mp hg
    exact hcs c hc
  rw [Bytes.trim, glyphs_append_ofChars, glyphs_ofChars_append,
    trimGlyphs_append (hchars cs hcs) h.trimmed.bareEnds (hchars ds hds), ofGlyphs_glyphs]

/-- Trimming leaves a core. -/
theorem isCore_trim (s : Bytes) : IsCore s.trim s := by
  obtain ⟨front, back, hgs, hfront, hback⟩ := exists_trimGlyphs s.glyphs
  obtain ⟨cs, rfl, hcs⟩ := exists_chars_of_blank hfront
  obtain ⟨ds, rfl, hds⟩ := exists_chars_of_blank hback
  have hbare := bareEnds_trimGlyphs s.glyphs
  have htrim : s.trim = ofGlyphs (trimGlyphs s.glyphs) := rfl
  generalize trimGlyphs s.glyphs = mid at hgs hbare htrim
  have hs : s = ofChars cs ++ s.trim ++ ofChars ds := by
    conv_lhs => rw [← ofGlyphs_glyphs s, hgs]
    rw [ofGlyphs_append, ofGlyphs_append, ofGlyphs_map_char, ofGlyphs_map_char, ← htrim]
  refine ⟨fun c hc => ⟨?_, ?_⟩, ofChars cs, ofChars ds, ⟨cs, hcs, rfl⟩, ⟨ds, hds, rfl⟩, hs⟩
  -- read in its place, a blank at an end of the core is the glyph there
  · rintro ⟨rest, hrest⟩
    have hread : s.glyphs = cs.map .char ++ (.char c :: glyphs (rest ++ ofChars ds)) := by
      have hone := glyphs_ofChars_append [c] (rest ++ ofChars ds)
      conv_lhs => rw [hs, ← hrest]
      rw [List.append_assoc, glyphs_ofChars_append]
      simpa [ofChars] using hone
    rw [hgs, List.append_assoc] at hread
    have hmid := List.append_cancel_left hread
    rcases mid with _ | ⟨g, mid⟩
    · rw [htrim] at hrest
      exact Utf8.encode_ne_nil c (List.append_eq_nil_iff.mp hrest).1
    · obtain ⟨rfl, -⟩ := List.cons.inj hmid
      exact absurd hc (Bool.eq_false_iff.mp (hbare.head (.char c) rfl))
  · rintro ⟨rest, hrest⟩
    have hread : s.glyphs = (ofChars cs ++ rest).glyphs ++ [.char c] ++ ds.map .char := by
      have hone := glyphs_append_ofChars (ofChars cs ++ rest) (c :: ds)
      conv_lhs => rw [hs, ← hrest]
      simpa [ofChars] using hone
    rw [hgs] at hread
    have hmid := List.append_cancel_right hread
    rcases List.eq_nil_or_concat mid with rfl | ⟨before, g, rfl⟩
    · rw [htrim] at hrest
      exact Utf8.encode_ne_nil c (List.append_eq_nil_iff.mp hrest).2
    · rw [List.concat_eq_append, ← List.append_assoc] at hmid
      obtain ⟨-, hg⟩ := List.append_inj' hmid rfl
      cases hg
      exact absurd hc (Bool.eq_false_iff.mp (hbare.last (.char c) (by simp)))

/-- Every text has one core, and trimming finds it. -/
theorem trim_eq_iff {s core : Bytes} : s.trim = core ↔ IsCore core s :=
  ⟨fun h => h ▸ isCore_trim s, IsCore.trim⟩

theorem isTrimmed_trim (s : Bytes) : IsTrimmed s.trim := (isCore_trim s).trimmed

theorem IsTrimmed.trim {s : Bytes} (h : IsTrimmed s) : s.trim = s :=
  trim_eq_iff.mpr ⟨h, [], [], isBlank_nil, isBlank_nil, by simp⟩

/-- White space around a text is not part of its core. -/
theorem trim_append {u v : Bytes} (hu : IsBlank u) (hv : IsBlank v) (s : Bytes) : (u ++ s ++ v).trim = s.trim := by
  obtain ⟨htrimmed, u', v', hu', hv', hs⟩ := isCore_trim s
  refine trim_eq_iff.mpr ⟨htrimmed, u ++ u', v' ++ v, hu.append hu', hv'.append hv, ?_⟩
  conv_lhs => rw [hs]
  simp

theorem trim_eq_nil_iff {s : Bytes} : s.trim = [] ↔ IsBlank s := by
  rw [trim_eq_iff]
  constructor
  · rintro ⟨-, u, v, hu, hv, rfl⟩
    simpa using hu.append hv
  · intro h
    exact ⟨isTrimmed_nil, s, [], h, isBlank_nil, by simp⟩

instance (core s : Bytes) : Decidable (IsCore core s) := decidable_of_iff _ trim_eq_iff

instance (s : Bytes) : Decidable s.IsBlank := decidable_of_iff _ trim_eq_nil_iff

end Bytes

/-! ### Comparing outputs -/

theorem outputMatches_append {u v u' v' : Bytes} (hu : u.IsBlank) (hv : v.IsBlank) (hu' : u'.IsBlank) (hv' : v'.IsBlank)
    (actual expected : Bytes) :
    outputMatches (u ++ actual ++ v) (u' ++ expected ++ v') = outputMatches actual expected := by
  rw [outputMatches, Bytes.trim_append hu hv, Bytes.trim_append hu' hv', outputMatches]

/-- An expected text that is more than white space is met exactly by its core with white space around it. -/
theorem outputMatches_iff {actual expected core : Bytes} (hcore : Bytes.IsCore core expected)
    (h : ¬ expected.IsBlank) :
    outputMatches actual expected = true ↔ ∃ u v, Bytes.IsBlank u ∧ Bytes.IsBlank v ∧ actual = u ++ core ++ v := by
  have hne : ¬ core = [] := fun hnil => h (Bytes.trim_eq_nil_iff.mp (hcore.trim.trans hnil))
  have hmatches : outputMatches actual expected = true ↔ actual.trim = core := by
    simp [outputMatches, hcore.trim, hne]
  rw [hmatches, Bytes.trim_eq_iff]
  exact ⟨fun hactual => hactual.around, fun haround => ⟨hcore.trimmed, haround⟩⟩

end Stopwatch
