import Mathlib.Tactic.Common
import Stopwatch.Proofs.Escapes
import Stopwatch.Proofs.Literals

/-!
Values over the wire. A value whose texts are UTF-8, whose numbers are literals and whose lists and tables do not stand too
deep inside each other is read back as it is.
-/

namespace Stopwatch.Wire

/-- A value that comes back as it went out, with lists and tables inside each other up to a depth. -/
inductive Portable : Nat → Value → Prop
  | null {depth : Nat} : Portable depth .null
  | truth {depth : Nat} (b : Bool) : Portable depth (.truth b)
  | number {depth : Nat} {literal : Bytes} (h : IsLiteral literal) : Portable depth (.number literal)
  | text {depth : Nat} {s : Bytes} (h : s.IsUtf8) : Portable depth (.text s)
  | list {depth : Nat} {items : List Value} (h : ∀ v ∈ items, Portable depth v) : Portable (depth + 1) (.list items)
  | table {depth : Nat} {entries : List (Bytes × Value)} (hkeys : ∀ e ∈ entries, e.1.IsUtf8)
      (h : ∀ e ∈ entries, Portable depth e.2) : Portable (depth + 1) (.table entries)

/-! ### Blanks and words -/

theorem skipBlank_cons {b : UInt8} (h : isBlank b = false) (rest : Bytes) : skipBlank (b :: rest) = b :: rest := by
  simp [skipBlank, h]

theorem doubleQuote_ne_closeBrace : Ascii.doubleQuote ≠ Ascii.closeBrace := by decide

theorem terminates_nil : Terminates [] := nofun

theorem terminates_comma (rest : Bytes) : Terminates (Ascii.comma :: rest) := by
  rintro b hb
  cases hb
  decide

theorem terminates_closeBracket (rest : Bytes) : Terminates (Ascii.closeBracket :: rest) := by
  rintro b hb
  cases hb
  decide

theorem terminates_closeBrace (rest : Bytes) : Terminates (Ascii.closeBrace :: rest) := by
  rintro b hb
  cases hb
  decide

/-! ### How a value begins -/

/-- The first octet of a literal is no blank and starts no value of another kind. -/
theorem IsNumber.head_not_mem {b : UInt8} {t : Bytes} (h : IsNumber (b :: t)) :
    b ∉ [Ascii.space, Ascii.tab, Ascii.newline, Ascii.carriageReturn, Ascii.doubleQuote, Ascii.openBracket,
      Ascii.closeBracket, Ascii.openBrace, 0x6e, 0x74, 0x66] := by
  obtain ⟨b', t', heq, hb⟩ := h.head
  cases heq
  intro hmem
  have hothers : ([Ascii.space, Ascii.tab, Ascii.newline, Ascii.carriageReturn, Ascii.doubleQuote, Ascii.openBracket,
      Ascii.closeBracket, Ascii.openBrace, 0x6e, 0x74, 0x66].all fun c => !(Ascii.isDigit c || c == Ascii.minus)) = true :=
    rfl
  have hother := List.all_eq_true.mp hothers b hmem
  rcases hb with hb | rfl
  · simp [hb] at hother
  · cases hother

/-- A value begins with no blank and no closing bracket. -/
theorem Portable.head {depth : Nat} {v : Value} (h : Portable depth v) :
    ∃ b t, v.render = b :: t ∧ isBlank b = false ∧ b ≠ Ascii.closeBracket := by
  cases h with
  | null => exact ⟨_, _, rfl, by decide⟩
  | truth b => cases b <;> exact ⟨_, _, rfl, by decide⟩
  | number h =>
    obtain ⟨b, t, rfl, -⟩ := h.isNumber.head
    have hb := h.isNumber.head_not_mem
    simp only [List.mem_cons, List.not_mem_nil, or_false, not_or] at hb
    exact ⟨b, t, by rw [Value.render], by simp [isBlank, hb], hb.2.2.2.2.2.2.1⟩
  | text h => exact ⟨_, _, by rw [Value.render, writeText], by decide⟩
  | list h => exact ⟨_, _, by rw [Value.render], by decide⟩
  | table hkeys h => exact ⟨_, _, by rw [Value.render], by decide⟩

/-! ### Scalars -/

theorem readValue_literal {s rest : Bytes} (h : IsNumber s) (hrest : Terminates rest) (fuel depth : Nat) :
    readValue (fuel + 1) depth (s ++ rest) = some (.number s, rest) := by
  have hread := h.number? hrest
  obtain ⟨b, t, rfl, -⟩ := h.head
  have hb := h.head_not_mem
  simp only [List.mem_cons, List.not_mem_nil, or_false, not_or] at hb
  rw [List.cons_append] at hread ⊢
  simp [readValue, hb, hread]

theorem readValue_writeText {s : Bytes} (h : s.IsUtf8) (rest : Bytes) (fuel depth : Nat) :
    readValue (fuel + 1) depth (writeText s ++ rest) = some (.text s, rest) := by
  obtain ⟨body, hwrite, hread⟩ := readText_writeText h rest
  rw [hwrite]
  simp [readValue, hread]

theorem readValue_null (rest : Bytes) (fuel depth : Nat) :
    readValue (fuel + 1) depth (Value.null.render ++ rest) = some (.null, rest) := rfl

theorem readValue_truth (b : Bool) (rest : Bytes) (fuel depth : Nat) :
    readValue (fuel + 1) depth ((Value.truth b).render ++ rest) = some (.truth b, rest) := by
  cases b <;> rfl

/-! ### Items and entries -/

section Steps

variable {fuel limit : Nat} {s body after rest : Bytes} {key : Bytes} {v : Value}

theorem readItems_last (h : readValue fuel limit s = some (v, after)) (hafter : skipBlank after = Ascii.closeBracket :: rest)
    (seen : List Value) : readItems (fuel + 1) limit s seen = some (.list (v :: seen).reverse, rest) := by
  rw [readItems, h]
  simp only [hafter]
  rfl

theorem readItems_next (h : readValue fuel limit s = some (v, after)) (hafter : skipBlank after = Ascii.comma :: rest)
    (seen : List Value) :
    readItems (fuel + 1) limit s seen = readItems fuel limit (skipBlank rest) (v :: seen) := by
  rw [readItems, h]
  simp only [hafter]
  rfl

/-- After an entry the table ends or goes on. -/
def afterEntry (fuel limit : Nat) (seen : List (Bytes × Value)) : Bytes → Option (Value × Bytes)
  | Ascii.closeBrace :: rest => some (.table seen.reverse, rest)
  | Ascii.comma :: rest => readEntries fuel limit (skipBlank rest) seen
  | _ => none

theorem readEntries_value {colon : Bytes} (hkey : readText body = some (key, colon))
    (hcolon : skipBlank colon = Ascii.colon :: s) (h : readValue fuel limit (skipBlank s) = some (v, after))
    (seen : List (Bytes × Value)) :
    readEntries (fuel + 1) limit (Ascii.doubleQuote :: body) seen
      = afterEntry fuel limit ((key, v) :: seen) (skipBlank after) := by
  -- The equations of the reader match on octets by their bits.
  have hcolon : skipBlank colon = { toBitVec := 58#8 } :: s := hcolon
  change readEntries (fuel + 1) limit ({ toBitVec := 34#8 } :: body) seen = _
  rw [readEntries, hkey]
  simp only [hcolon, h]
  rfl

theorem readEntries_last {colon : Bytes} (hkey : readText body = some (key, colon))
    (hcolon : skipBlank colon = Ascii.colon :: s) (h : readValue fuel limit (skipBlank s) = some (v, after))
    (hafter : skipBlank after = Ascii.closeBrace :: rest) (seen : List (Bytes × Value)) :
    readEntries (fuel + 1) limit (Ascii.doubleQuote :: body) seen = some (.table ((key, v) :: seen).reverse, rest) := by
  rw [readEntries_value hkey hcolon h, hafter]
  rfl

theorem readEntries_next {colon : Bytes} (hkey : readText body = some (key, colon))
    (hcolon : skipBlank colon = Ascii.colon :: s) (h : readValue fuel limit (skipBlank s) = some (v, after))
    (hafter : skipBlank after = Ascii.comma :: rest) (seen : List (Bytes × Value)) :
    readEntries (fuel + 1) limit (Ascii.doubleQuote :: body) seen
      = readEntries fuel limit (skipBlank rest) ((key, v) :: seen) := by
  rw [readEntries_value hkey hcolon h, hafter]
  rfl

theorem readValue_openBracket (hclose : (skipBlank s).head? ≠ some Ascii.closeBracket) :
    readValue (fuel + 1) (limit + 1) (Ascii.openBracket :: s) = readItems fuel limit (skipBlank s) [] := by
  have hquote : Ascii.openBracket ≠ Ascii.doubleQuote := by decide
  simp [readValue, hquote]
  split
  · next heq => exact absurd (by rw [heq]; rfl) hclose
  · rfl

theorem readValue_openBrace (hclose : (skipBlank s).head? ≠ some Ascii.closeBrace) :
    readValue (fuel + 1) (limit + 1) (Ascii.openBrace :: s) = readEntries fuel limit (skipBlank s) [] := by
  have hquote : Ascii.openBrace ≠ Ascii.doubleQuote := by decide
  have hbracket : Ascii.openBrace ≠ Ascii.openBracket := by decide
  simp [readValue, hquote, hbracket]
  split
  · next heq => exact absurd (by rw [heq]; rfl) hclose
  · rfl

theorem readValue_emptyList (hclose : skipBlank s = Ascii.closeBracket :: rest) :
    readValue (fuel + 1) (limit + 1) (Ascii.openBracket :: s) = some (.list [], rest) := by
  have hquote : Ascii.openBracket ≠ Ascii.doubleQuote := by decide
  simp [readValue, hquote]
  split
  · next heq =>
    cases heq.symm.trans hclose
    rfl
  · next hother => exact absurd hclose (hother rest)

theorem readValue_emptyTable (hclose : skipBlank s = Ascii.closeBrace :: rest) :
    readValue (fuel + 1) (limit + 1) (Ascii.openBrace :: s) = some (.table [], rest) := by
  have hquote : Ascii.openBrace ≠ Ascii.doubleQuote := by decide
  have hbracket : Ascii.openBrace ≠ Ascii.openBracket := by decide
  simp [readValue, hquote, hbracket]
  split
  · next heq =>
    cases heq.symm.trans hclose
    rfl
  · next hother => exact absurd hclose (hother rest)

end Steps

/-- A value that is read back with enough steps, whatever follows that cannot belong to it. -/
def Reads (depth : Nat) (v : Value) : Prop :=
  ∀ fuel, v.render.length ≤ fuel → ∀ limit, depth ≤ limit → ∀ rest, Terminates rest →
    readValue fuel limit (v.render ++ rest) = some (v, rest)

theorem renderItems_cons_cons (v w : Value) (items : List Value) :
    renderItems (v :: w :: items) = v.render ++ Ascii.comma :: renderItems (w :: items) := by
  simp [renderItems]

/-- A list of items begins as its first item does. -/
theorem skipBlank_renderItems {depth : Nat} {v : Value} (h : Portable depth v) (items : List Value) (rest : Bytes) :
    skipBlank (renderItems (v :: items) ++ rest) = renderItems (v :: items) ++ rest := by
  obtain ⟨b, t, hhead, hblank, -⟩ := h.head
  cases items with
  | nil => simp [renderItems, hhead, skipBlank_cons hblank]
  | cons w items => simp [renderItems_cons_cons, hhead, skipBlank_cons hblank]

/-- Items are read back up to the closing bracket. -/
theorem readItems_renderItems {depth : Nat} {items : List Value} (hne : items ≠ []) (hitems : ∀ v ∈ items, Portable depth v)
    (hreads : ∀ v ∈ items, Reads depth v) {fuel limit : Nat} (hfuel : (renderItems items).length < fuel)
    (hlimit : depth ≤ limit) (rest : Bytes) (seen : List Value) :
    readItems fuel limit (renderItems items ++ Ascii.closeBracket :: rest) seen = some (.list (seen.reverse ++ items), rest) := by
  induction items generalizing fuel seen with
  | nil => exact absurd rfl hne
  | cons v items ih =>
    obtain ⟨fuel, rfl⟩ : ∃ k, fuel = k + 1 := ⟨fuel - 1, by omega⟩
    rw [List.forall_mem_cons] at hitems hreads
    cases items with
    | nil =>
      rw [renderItems] at hfuel ⊢
      have hread := hreads.1 fuel (by omega) limit hlimit _ (terminates_closeBracket rest)
      rw [readItems_last hread rfl, List.reverse_cons]
    | cons w items =>
      rw [renderItems_cons_cons] at hfuel ⊢
      simp only [List.length_append, List.length_cons] at hfuel
      rw [List.append_assoc, List.cons_append]
      have hread := hreads.1 fuel (by omega) limit hlimit _ (terminates_comma (renderItems (w :: items) ++ Ascii.closeBracket :: rest))
      rw [readItems_next hread rfl, skipBlank_renderItems (hitems.2 w (by simp)),
        ih (by simp) hitems.2 hreads.2 (by omega) (v :: seen)]
      simp

theorem renderEntries_cons_cons (key : Bytes) (v : Value) (e : Bytes × Value) (entries : List (Bytes × Value)) :
    renderEntries ((key, v) :: e :: entries)
      = writeText key ++ Ascii.colon :: (v.render ++ Ascii.comma :: renderEntries (e :: entries)) := by
  simp [renderEntries]

/-- Entries begin with the quote of the first key. -/
theorem renderEntries_cons (e : Bytes × Value) (entries : List (Bytes × Value)) :
    ∃ t, renderEntries (e :: entries) = Ascii.doubleQuote :: t := by
  cases entries with
  | nil => exact ⟨_, by rw [renderEntries, writeText, List.cons_append]⟩
  | cons e' entries => exact ⟨_, by rw [renderEntries_cons_cons, writeText, List.cons_append]⟩

theorem Portable.skipBlank {depth : Nat} {v : Value} (h : Portable depth v) (rest : Bytes) :
    skipBlank (v.render ++ rest) = v.render ++ rest := by
  obtain ⟨b, t, hhead, hblank, -⟩ := h.head
  rw [hhead, List.cons_append, skipBlank_cons hblank]

/-- Entries are read back up to the closing brace. -/
theorem readEntries_renderEntries {depth : Nat} {entries : List (Bytes × Value)} (hne : entries ≠ [])
    (hkeys : ∀ e ∈ entries, e.1.IsUtf8) (hvalues : ∀ e ∈ entries, Portable depth e.2)
    (hreads : ∀ e ∈ entries, Reads depth e.2) {fuel limit : Nat} (hfuel : (renderEntries entries).length < fuel)
    (hlimit : depth ≤ limit) (rest : Bytes) (seen : List (Bytes × Value)) :
    readEntries fuel limit (renderEntries entries ++ Ascii.closeBrace :: rest) seen
      = some (.table (seen.reverse ++ entries), rest) := by
  induction entries generalizing fuel seen with
  | nil => exact absurd rfl hne
  | cons e entries ih =>
    obtain ⟨key, v⟩ := e
    obtain ⟨fuel, rfl⟩ : ∃ k, fuel = k + 1 := ⟨fuel - 1, by omega⟩
    rw [List.forall_mem_cons] at hkeys hvalues hreads
    cases entries with
    | nil =>
      rw [renderEntries] at hfuel ⊢
      simp only [List.length_append, List.length_cons] at hfuel
      obtain ⟨body, hwrite, hkey⟩ := readText_writeText hkeys.1 (Ascii.colon :: (v.render ++ Ascii.closeBrace :: rest))
      have hread := hreads.1 fuel (by simp only; omega) limit hlimit _ (terminates_closeBrace rest)
      rw [List.append_assoc, List.cons_append, hwrite, readEntries_last hkey rfl (by rw [hvalues.1.skipBlank]; exact hread) rfl,
        List.reverse_cons]
    | cons e' entries =>
      rw [renderEntries_cons_cons] at hfuel ⊢
      simp only [List.length_append, List.length_cons] at hfuel
      obtain ⟨body, hwrite, hkey⟩ := readText_writeText hkeys.1
        (Ascii.colon :: (v.render ++ Ascii.comma :: (renderEntries (e' :: entries) ++ Ascii.closeBrace :: rest)))
      have hread := hreads.1 fuel (by simp only; omega) limit hlimit _
        (terminates_comma (renderEntries (e' :: entries) ++ Ascii.closeBrace :: rest))
      obtain ⟨t, ht⟩ := renderEntries_cons e' entries
      have hskip : skipBlank (renderEntries (e' :: entries) ++ Ascii.closeBrace :: rest)
          = renderEntries (e' :: entries) ++ Ascii.closeBrace :: rest := by
        rw [ht]; rfl
      rw [List.append_assoc, List.cons_append, List.append_assoc, List.cons_append, hwrite,
        readEntries_next hkey rfl (by rw [hvalues.1.skipBlank]; exact hread) rfl, hskip,
        ih (by simp) hkeys.2 hvalues.2 hreads.2 (by omega) ((key, v) :: seen)]
      simp

/-! ### Values -/

/-- No value is written as nothing. -/
theorem Portable.exists_fuel {depth : Nat} {v : Value} (h : Portable depth v) {fuel : Nat} (hfuel : v.render.length ≤ fuel) :
    ∃ k, fuel = k + 1 := by
  obtain ⟨b, t, hhead, -⟩ := h.head
  rw [hhead, List.length_cons] at hfuel
  exact ⟨fuel - 1, by omega⟩

theorem readValue_list {depth : Nat} {items : List Value} (hitems : ∀ v ∈ items, Portable depth v)
    (hreads : ∀ v ∈ items, Reads depth v) {fuel limit : Nat} (hfuel : (Value.list items).render.length ≤ fuel + 1)
    (hlimit : depth ≤ limit) (rest : Bytes) :
    readValue (fuel + 1) (limit + 1) ((Value.list items).render ++ rest) = some (.list items, rest) := by
  cases items with
  | nil => rfl
  | cons v items =>
    rw [Value.render] at hfuel ⊢
    simp only [List.length_append, List.length_cons, List.length_nil] at hfuel
    obtain ⟨b, t, hhead, -, hclose⟩ := (hitems v (by simp)).head
    have hne : (renderItems (v :: items) ++ Ascii.closeBracket :: rest).head? ≠ some Ascii.closeBracket := by
      cases items with
      | nil => simpa [renderItems, hhead] using hclose
      | cons w items => simpa [renderItems_cons_cons, hhead] using hclose
    have hskip := skipBlank_renderItems (hitems v (by simp)) items (Ascii.closeBracket :: rest)
    rw [List.cons_append, List.append_assoc, List.singleton_append, readValue_openBracket (by rw [hskip]; exact hne), hskip,
      readItems_renderItems (by simp) hitems hreads (by omega) hlimit]
    rfl

theorem readValue_table {depth : Nat} {entries : List (Bytes × Value)} (hkeys : ∀ e ∈ entries, e.1.IsUtf8)
    (hvalues : ∀ e ∈ entries, Portable depth e.2) (hreads : ∀ e ∈ entries, Reads depth e.2) {fuel limit : Nat}
    (hfuel : (Value.table entries).render.length ≤ fuel + 1) (hlimit : depth ≤ limit) (rest : Bytes) :
    readValue (fuel + 1) (limit + 1) ((Value.table entries).render ++ rest) = some (.table entries, rest) := by
  cases entries with
  | nil => rfl
  | cons e entries =>
    rw [Value.render] at hfuel ⊢
    simp only [List.length_append, List.length_cons, List.length_nil] at hfuel
    obtain ⟨t, ht⟩ := renderEntries_cons e entries
    have hskip : skipBlank (renderEntries (e :: entries) ++ Ascii.closeBrace :: rest) =
        renderEntries (e :: entries) ++ Ascii.closeBrace :: rest := by rw [ht]; rfl
    rw [List.cons_append, List.append_assoc, List.singleton_append,
      readValue_openBrace (by rw [hskip, ht]; simp [doubleQuote_ne_closeBrace]), hskip,
      readEntries_renderEntries (by simp) hkeys hvalues hreads (by omega) hlimit]
    rfl

/-- Every such value is read back, with a step for each of its octets. -/
theorem Portable.reads {depth : Nat} {v : Value} (h : Portable depth v) : Reads depth v := by
  induction h with
  | null =>
    intro fuel hfuel limit _ rest _
    obtain ⟨fuel, rfl⟩ := (Portable.null : Portable 0 _).exists_fuel hfuel
    exact readValue_null rest fuel limit
  | truth b =>
    intro fuel hfuel limit _ rest _
    obtain ⟨fuel, rfl⟩ := (Portable.truth b : Portable 0 _).exists_fuel hfuel
    exact readValue_truth b rest fuel limit
  | number h =>
    intro fuel hfuel limit _ rest hrest
    obtain ⟨fuel, rfl⟩ := (Portable.number h : Portable 0 _).exists_fuel hfuel
    rw [Value.render]
    exact readValue_literal h.isNumber hrest fuel limit
  | text h =>
    intro fuel hfuel limit _ rest _
    obtain ⟨fuel, rfl⟩ := (Portable.text h : Portable 0 _).exists_fuel hfuel
    rw [Value.render]
    exact readValue_writeText h rest fuel limit
  | list h ih =>
    intro fuel hfuel limit hlimit rest _
    obtain ⟨fuel, rfl⟩ := (Portable.list h).exists_fuel hfuel
    obtain ⟨limit, rfl⟩ : ∃ k, limit = k + 1 := ⟨limit - 1, by omega⟩
    exact readValue_list h ih hfuel (by omega) rest
  | table hkeys h ih =>
    intro fuel hfuel limit hlimit rest _
    obtain ⟨fuel, rfl⟩ := (Portable.table hkeys h).exists_fuel hfuel
    obtain ⟨limit, rfl⟩ : ∃ k, limit = k + 1 := ⟨limit - 1, by omega⟩
    exact readValue_table hkeys h ih hfuel (by omega) rest

/-- What is written is read back as the same value. -/
theorem parse_render {depth : Nat} {v : Value} (h : Portable depth v) (hdepth : depth ≤ maxDepth) :
    Value.parse v.render = some v := by
  have hskip : skipBlank v.render = v.render := by simpa using h.skipBlank []
  have hread := h.reads (2 * v.render.length + 2) (by omega) maxDepth hdepth [] terminates_nil
  rw [List.append_nil] at hread
  rw [Value.parse, hskip, hread]
  rfl

end Stopwatch.Wire
