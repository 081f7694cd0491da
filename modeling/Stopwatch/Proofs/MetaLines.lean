import Mathlib.Data.List.TakeDrop
import Mathlib.Data.List.TakeWhile
import Mathlib.Data.Nat.Init
import Stopwatch.Isolate.Meta
import Stopwatch.Proofs.Outcome

/-!
Meta files line by line. A text is read as its lines, and each line can be used or offends by itself, whatever was read
before it. So the first offending line alone decides the error of the whole file, and a file without one is read.
-/

namespace Stopwatch

/-! ### Cutting at an octet -/

namespace Bytes

theorem cut_append {sep : UInt8} {before : Bytes} (h : sep ∉ before) (after : Bytes) :
    cut sep (before ++ sep :: after) = some (before, after) := by
  have hbefore : ∀ b ∈ before, (b != sep) = true := by
    intro b hb
    simpa using fun heq : b = sep => h (heq ▸ hb)
  rw [cut, List.span_eq_takeWhile_dropWhile, List.takeWhile_append_of_pos hbefore, List.dropWhile_append_of_pos hbefore]
  simp

theorem cut_of_not_mem {sep : UInt8} {s : Bytes} (h : sep ∉ s) : cut sep s = none := by
  have hall : ∀ b ∈ s, (b != sep) = true := by
    intro b hb
    simpa using fun heq : b = sep => h (heq ▸ hb)
  have hnone : s.dropWhile (· != sep) = [] := by rwa [List.dropWhile_eq_nil_iff]
  rw [cut, List.span_eq_takeWhile_dropWhile, hnone]

/-- An octet that occurs has a first occurrence. -/
theorem exists_eq_append_of_mem {sep : UInt8} {s : Bytes} (h : sep ∈ s) :
    ∃ before after, s = before ++ sep :: after ∧ sep ∉ before := List.eq_append_cons_of_mem h

theorem cut_eq_some_iff {sep : UInt8} {s before after : Bytes} :
    cut sep s = some (before, after) ↔ s = before ++ sep :: after ∧ sep ∉ before := by
  constructor
  · intro h
    by_cases hmem : sep ∈ s
    · obtain ⟨b, a, rfl, hb⟩ := exists_eq_append_of_mem hmem
      rw [cut_append hb] at h
      cases h
      exact ⟨rfl, hb⟩
    · rw [cut_of_not_mem hmem] at h
      cases h
  · rintro ⟨rfl, h⟩
    exact cut_append h after

end Bytes

namespace Isolate

/-! ### Lines -/

/-- Lines with their ends. -/
def terminated (lines : List Bytes) : Bytes := lines.flatMap (· ++ [Ascii.newline])

/-- A text read as lines: each ends at a line feed, and what stands behind the last line feed is a line too unless it is
empty. -/
structure IsLines (text : Bytes) (lines : List Bytes) : Prop where
  unbroken : ∀ line ∈ lines, Ascii.newline ∉ line
  text : text = terminated lines ∨ ∃ before last, lines = before ++ [last] ∧ last ≠ [] ∧ text = terminated before ++ last

theorem splitLines_unterminated {line : Bytes} (h : Ascii.newline ∉ line) :
    splitLines line = if line = [] then [] else [line] := by
  have hsplit : Bytes.split Ascii.newline line = [line] := List.splitOn_eq_singleton h
  cases line with
  | nil => rfl
  | cons b line => simp [splitLines, hsplit]

theorem splitLines_cons {line : Bytes} (h : Ascii.newline ∉ line) (rest : Bytes) :
    splitLines (line ++ Ascii.newline :: rest) = line :: splitLines rest := by
  have hsplit : Bytes.split Ascii.newline (line ++ Ascii.newline :: rest) = line :: Bytes.split Ascii.newline rest :=
    List.splitOn_append_cons_self_of_not_mem h rest
  have hne : Bytes.split Ascii.newline rest ≠ [] := List.splitOn_ne_nil _ rest
  simp only [splitLines, hsplit]
  obtain ⟨piece, pieces, hpieces⟩ := List.exists_cons_of_ne_nil hne
  rw [hpieces, List.getLast?_cons_cons, List.dropLast_cons_cons]
  split <;> rfl

theorem splitLines_terminated {before : List Bytes} (h : ∀ line ∈ before, Ascii.newline ∉ line) (rest : Bytes) :
    splitLines (terminated before ++ rest) = before ++ splitLines rest := by
  induction before with
  | nil => rfl
  | cons line before ih =>
    rw [List.forall_mem_cons] at h
    have htext : terminated (line :: before) ++ rest = line ++ Ascii.newline :: (terminated before ++ rest) := by
      simp [terminated]
    rw [htext, splitLines_cons h.1, ih h.2, List.cons_append]

theorem isLines_splitLines (text : Bytes) : IsLines text (splitLines text) := by
  -- on the number of octets: a line feed splits a shorter text off
  induction hn : text.length using Nat.strong_induction_on generalizing text with
  | _ n ih =>
    by_cases hmem : Ascii.newline ∈ text
    · obtain ⟨line, rest, rfl, hline⟩ := Bytes.exists_eq_append_of_mem hmem
      have hrest := ih rest.length (by rw [← hn]; simp; omega) rest rfl
      rw [splitLines_cons hline]
      refine ⟨List.forall_mem_cons.mpr ⟨hline, hrest.unbroken⟩, ?_⟩
      rcases hrest.text with htext | ⟨before, last, hlines, hlast, htext⟩
      · refine .inl ?_
        conv_lhs => rw [htext]
        simp [terminated]
      · exact .inr ⟨line :: before, last, by rw [hlines]; rfl, hlast, by rw [htext]; simp [terminated]⟩
    · rw [splitLines_unterminated hmem]
      by_cases hempty : text = []
      · rw [if_pos hempty, hempty]
        exact ⟨List.forall_mem_nil _, .inl rfl⟩
      · rw [if_neg hempty]
        exact ⟨List.forall_mem_singleton.mpr hmem, .inr ⟨[], text, rfl, hempty, rfl⟩⟩

/-- Every text is read as lines in one way. -/
theorem isLines_iff {text : Bytes} {lines : List Bytes} : IsLines text lines ↔ lines = splitLines text := by
  constructor
  · rintro ⟨unbroken, rfl | ⟨before, last, rfl, hlast, rfl⟩⟩
    · have hsplit := splitLines_terminated unbroken []
      rw [List.append_nil] at hsplit
      rw [hsplit]
      exact (List.append_nil lines).symm
    · rw [List.forall_mem_append, List.forall_mem_singleton] at unbroken
      rw [splitLines_terminated unbroken.1, splitLines_unterminated unbroken.2, if_neg hlast]
  · rintro rfl
    exact isLines_splitLines text

/-- A text that is empty or goes on with a line feed. -/
def StartsAnew (rest : Bytes) : Prop := ∀ b, rest.head? = some b → b = Ascii.newline

/-- Each line has its place in the text: behind the lines before it, up to the end of the text or to its own line feed. -/
theorem IsLines.place {text : Bytes} {before after : List Bytes} {line : Bytes}
    (h : IsLines text (before ++ line :: after)) :
    ∃ rest, text = terminated before ++ line ++ rest ∧ StartsAnew rest := by
  have hfeed : ∀ rest, StartsAnew (Ascii.newline :: rest) := fun rest b hb => (Option.some.inj hb).symm
  rcases h.text with rfl | ⟨before', last, hlines, -, rfl⟩
  · exact ⟨Ascii.newline :: terminated after, by simp [terminated], hfeed _⟩
  · rcases List.eq_nil_or_concat after with rfl | ⟨after', last', rfl⟩
    · obtain ⟨rfl, hlast⟩ := List.append_inj' hlines rfl
      cases hlast
      exact ⟨[], by simp, fun b hb => absurd hb (Option.some_ne_none b).symm⟩
    · have hparts : (before ++ line :: after') ++ [last'] = before' ++ [last] := by simpa using hlines
      obtain ⟨rfl, hlast⟩ := List.append_inj' hparts rfl
      cases hlast
      exact ⟨Ascii.newline :: (terminated after' ++ last), by simp [terminated], hfeed _⟩

/-! ### Lines that can be used, and lines that offend -/

/-- The keys whose values are whole numbers. -/
def countKeys : List Bytes := [utf8 "cg-mem", utf8 "cg-oom-killed", utf8 "exitcode"]

/-- A line that gives a key a value. -/
def Gives (line key value : Bytes) : Prop := dropReturn line = key ++ Ascii.colon :: value

/-- A line that can be used: short enough, and with a number where its key needs one. -/
structure Usable (line : Bytes) : Prop where
  short : line.length < lineLimit
  time : ∀ value, Gives line (utf8 "time") value → ∃ x, FloatReader.read value = .ok x
  count : ∀ key ∈ countKeys, ∀ value, Gives line key value → ∃ n, Integer.read value = .ok n

/-- A line that cannot be used, with the error for it. -/
inductive Offends (line : Bytes) : MetaError → Prop
  | tooLong (h : lineLimit ≤ line.length) : Offends line .lineTooLong
  | time {value : Bytes} {reason : NumberError} (short : line.length < lineLimit) (gives : Gives line (utf8 "time") value)
      (refused : FloatReader.read value = .error reason) : Offends line (.badField (utf8 "time") reason)
  | count {key value : Bytes} {reason : NumberError} (short : line.length < lineLimit) (hkey : key ∈ countKeys)
      (gives : Gives line key value) (refused : Integer.read value = .error reason) : Offends line (.badField key reason)

theorem Usable.not_offends {line : Bytes} (h : Usable line) {e : MetaError} : ¬ Offends line e := by
  rintro (hlong | ⟨-, gives, refused⟩ | ⟨-, hkey, gives, refused⟩)
  · exact absurd h.short (Nat.not_lt.mpr hlong)
  · obtain ⟨x, hx⟩ := h.time _ gives
    rw [hx] at refused
    cases refused
  · obtain ⟨n, hn⟩ := h.count _ hkey _ gives
    rw [hn] at refused
    cases refused

/-! ### One line -/

/-- A value is refused by the reader of numbers that its key asks for, and by nothing else. -/
theorem put_eq_error_iff {m : Meta} {key value : Bytes} {reason : NumberError} :
    m.put key value = .error reason ↔
      (key = utf8 "time" ∧ FloatReader.read value = .error reason) ∨
        (key ∈ countKeys ∧ Integer.read value = .error reason) := by
  by_cases htime : key = utf8 "time"
  · have hcount : utf8 "time" ∉ countKeys := by decide
    have hput : m.put (utf8 "time") value = (FloatReader.read value).map fun x => { m with time := x } := rfl
    rw [htime, hput, map_eq_error_iff]
    simp [hcount]
  · by_cases hcount : key ∈ countKeys
    · have hput : ∃ f : Int64 → Meta, m.put key value = (Integer.read value).map f := by
        simp only [countKeys, List.mem_cons, List.not_mem_nil, or_false] at hcount
        rcases hcount with rfl | rfl | rfl <;> exact ⟨_, rfl⟩
      obtain ⟨f, hf⟩ := hput
      rw [hf, map_eq_error_iff]
      simp [htime, hcount]
    · have hput : ∃ m', m.put key value = .ok m' := by
        simp only [countKeys, List.mem_cons, List.not_mem_nil, or_false, not_or] at hcount
        simp only [Meta.put, beq_iff_eq, htime, hcount, if_false]
        split
        · exact ⟨_, rfl⟩
        · split <;> exact ⟨_, rfl⟩
      obtain ⟨m', hm⟩ := hput
      rw [hm]
      simp [htime, hcount]

/-- What stands before the first colon is the key that a line gives a value. -/
theorem cut_of_gives {line key value : Bytes} (hkey : Ascii.colon ∉ key) (h : Gives line key value) :
    Bytes.cut Ascii.colon (dropReturn line) = some (key, value) := by
  rw [h, Bytes.cut_append hkey]

theorem gives_of_cut {line key value : Bytes} (h : Bytes.cut Ascii.colon (dropReturn line) = some (key, value)) :
    Gives line key value := (Bytes.cut_eq_some_iff.mp h).1

theorem line_of_gives {m : Meta} {line key value : Bytes} (short : line.length < lineLimit) (hkey : Ascii.colon ∉ key)
    (h : Gives line key value) : m.line line = (m.put key value).mapError (.badField key) := by
  rw [Meta.line, if_neg (Nat.not_le.mpr short), cut_of_gives hkey h]

theorem colon_not_mem_of_mem_countKeys {key : Bytes} (h : key ∈ countKeys) : Ascii.colon ∉ key := by
  simp only [countKeys, List.mem_cons, List.not_mem_nil, or_false] at h
  rcases h with rfl | rfl | rfl <;> decide

/-- An offending line is refused with its error, whatever the contents are so far. -/
theorem Offends.line_eq {line : Bytes} {e : MetaError} (h : Offends line e) (m : Meta) : m.line line = .error e := by
  cases h with
  | tooLong h => rw [Meta.line, if_pos h]
  | time short gives refused =>
    rw [line_of_gives short (by decide) gives, put_eq_error_iff.mpr (.inl ⟨rfl, refused⟩)]
    rfl
  | count short hkey gives refused =>
    rw [line_of_gives short (colon_not_mem_of_mem_countKeys hkey) gives, put_eq_error_iff.mpr (.inr ⟨hkey, refused⟩)]
    rfl

theorem offends_of_line_eq {m : Meta} {line : Bytes} {e : MetaError} (h : m.line line = .error e) : Offends line e := by
  by_cases hlong : lineLimit ≤ line.length
  · rw [Meta.line, if_pos hlong] at h
    cases h
    exact .tooLong hlong
  · rw [Meta.line, if_neg hlong] at h
    have short := Nat.not_le.mp hlong
    split at h
    · cases h
    · next key value hcut =>
      cases hput : m.put key value with
      | ok m' => rw [hput] at h; cases h
      | error reason =>
        rw [hput] at h
        cases h
        rcases put_eq_error_iff.mp hput with ⟨rfl, refused⟩ | ⟨hkey, refused⟩
        · exact .time short (gives_of_cut hcut) refused
        · exact .count short hkey (gives_of_cut hcut) refused

/-- A line can be used or it offends. -/
theorem usable_or_offends (line : Bytes) : Usable line ∨ ∃ e, Offends line e := by
  by_cases h : ∃ e, Offends line e
  · exact .inr h
  · have short : line.length < lineLimit := Nat.not_le.mp fun hlong => h ⟨_, .tooLong hlong⟩
    refine .inl ⟨short, ?_, ?_⟩
    · intro value gives
      cases hread : FloatReader.read value with
      | ok x => exact ⟨x, rfl⟩
      | error reason => exact absurd ⟨_, .time short gives hread⟩ h
    · intro key hkey value gives
      cases hread : Integer.read value with
      | ok n => exact ⟨n, rfl⟩
      | error reason => exact absurd ⟨_, .count short hkey gives hread⟩ h

theorem Offends.ne_nil {line : Bytes} {e : MetaError} (h : Offends line e) : line ≠ [] := by
  rintro rfl
  have hgives : ∀ key value, ¬ Gives [] key value := by simp [Gives, dropReturn]
  cases h with
  | tooLong h => exact absurd h (by decide)
  | time _ gives _ => exact hgives _ _ gives
  | count _ _ gives _ => exact hgives _ _ gives

/-- What the message about a line says: that it is too long, or which key has a value that is no number and what the reader
of numbers says about it. -/
def Explains (message line : Bytes) : Prop :=
  (lineLimit ≤ line.length ∧ message = utf8 "bufio.Scanner: token too long") ∨
    ∃ key ∈ utf8 "time" :: countKeys, ∃ value reason, Gives line key value ∧
      (FloatReader.read value = .error reason ∨ Integer.read value = .error reason) ∧
      message = utf8 "meta " ++ key ++ utf8 ": " ++ reason.message

theorem Offends.explains {line : Bytes} {e : MetaError} (h : Offends line e) : Explains e.message line := by
  cases h with
  | tooLong h => exact .inl ⟨h, rfl⟩
  | time _ gives refused => exact .inr ⟨_, List.mem_cons_self, _, _, gives, .inl refused, rfl⟩
  | count _ hkey gives refused => exact .inr ⟨_, List.mem_cons_of_mem _ hkey, _, _, gives, .inr refused, rfl⟩

/-! ### All lines -/

/-- Usable lines are all taken in. -/
theorem foldlM_line_of_usable {lines : List Bytes} (h : ∀ line ∈ lines, Usable line) (m : Meta) :
    ∃ m', lines.foldlM Meta.line m = .ok m' := by
  induction lines generalizing m with
  | nil => exact ⟨m, rfl⟩
  | cons line lines ih =>
    rw [List.forall_mem_cons] at h
    cases hline : m.line line with
    | error e => exact absurd (offends_of_line_eq hline) h.1.not_offends
    | ok m' =>
      obtain ⟨m'', hm⟩ := ih h.2 m'
      refine ⟨m'', ?_⟩
      rw [List.foldlM_cons, hline]
      exact hm

/-- The first offending line ends the reading with its error. -/
theorem foldlM_line_of_offends {before : List Bytes} {line : Bytes} {e : MetaError} (hbefore : ∀ l ∈ before, Usable l)
    (h : Offends line e) (after : List Bytes) (m : Meta) :
    (before ++ line :: after).foldlM Meta.line m = .error e := by
  obtain ⟨m', hm⟩ := foldlM_line_of_usable hbefore m
  rw [List.foldlM_append, hm]
  change (line :: after).foldlM Meta.line m' = .error e
  rw [List.foldlM_cons, h.line_eq m']
  rfl

/-- Lines that cannot all be used have a first one that offends. -/
theorem exists_first_offends (lines : List Bytes) : (∀ line ∈ lines, Usable line) ∨
    ∃ before line after e, lines = before ++ line :: after ∧ (∀ l ∈ before, Usable l) ∧ Offends line e := by
  induction lines with
  | nil => exact .inl (List.forall_mem_nil _)
  | cons line lines ih =>
    rcases usable_or_offends line with husable | ⟨e, hoffends⟩
    · rcases ih with hall | ⟨before, bad, after, e, rfl, hbefore, hbad⟩
      · exact .inl (List.forall_mem_cons.mpr ⟨husable, hall⟩)
      · exact .inr ⟨line :: before, bad, after, e, rfl, List.forall_mem_cons.mpr ⟨husable, hbefore⟩, hbad⟩
    · exact .inr ⟨[], line, lines, e, rfl, List.forall_mem_nil _, hoffends⟩

theorem parse_of_offends {before : List Bytes} {line rest : Bytes} {e : MetaError}
    (hbefore : ∀ l ∈ before, Ascii.newline ∉ l ∧ Usable l) (hline : Ascii.newline ∉ line) (h : Offends line e)
    (hrest : StartsAnew rest) : Meta.parse (terminated before ++ line ++ rest) = .error e := by
  have hlines : ∃ after, splitLines (line ++ rest) = line :: after := by
    cases rest with
    | nil => exact ⟨[], by rw [List.append_nil, splitLines_unterminated hline, if_neg h.ne_nil]⟩
    | cons b rest => exact ⟨_, by rw [hrest b rfl, splitLines_cons hline]⟩
  obtain ⟨after, hafter⟩ := hlines
  rw [Meta.parse, List.append_assoc, splitLines_terminated fun l hl => (hbefore l hl).1, hafter]
  exact foldlM_line_of_offends (fun l hl => (hbefore l hl).2) h after {}

/-- A file that is refused has a first offending line, at its place in the text, and the error is that of the line. -/
theorem exists_place_of_error {text : Bytes} {e : MetaError} (h : Meta.parse text = .error e) :
    ∃ before line rest, text = terminated before ++ line ++ rest ∧ (∀ l ∈ before, Ascii.newline ∉ l ∧ Usable l) ∧
      Ascii.newline ∉ line ∧ Offends line e ∧ StartsAnew rest := by
  rcases exists_first_offends (splitLines text) with hall | ⟨before, line, after, e', hlines, hbefore, hline⟩
  · obtain ⟨m, hm⟩ := foldlM_line_of_usable hall {}
    rw [Meta.parse, hm] at h
    cases h
  · have hparse := foldlM_line_of_offends hbefore hline after {}
    rw [← hlines, ← Meta.parse, h] at hparse
    cases hparse
    have places := isLines_splitLines text
    rw [hlines] at places
    have unbroken := places.unbroken
    rw [List.forall_mem_append, List.forall_mem_cons] at unbroken
    obtain ⟨rest, htext, hrest⟩ := places.place
    exact ⟨before, line, rest, htext, fun l hl => ⟨unbroken.1 l hl, hbefore l hl⟩, unbroken.2.1, hline, hrest⟩

/-- A file that is read has usable lines only. -/
theorem usable_of_parse {text : Bytes} {m : Meta} (h : Meta.parse text = .ok m) : ∀ line ∈ splitLines text, Usable line := by
  rcases exists_first_offends (splitLines text) with hall | ⟨before, line, after, e, hlines, hbefore, hline⟩
  · exact hall
  · rw [Meta.parse, hlines, foldlM_line_of_offends hbefore hline] at h
    cases h

/-- A meta file is read exactly if all its lines can be used. Otherwise nothing is read, and the error is that of the first
offending line: the lines before it need only be usable, and the text behind it, from its line feed on, may be any. -/
theorem parse_fails_at_first (text : Bytes) :
    (∀ lines, IsLines text lines ↔ lines = splitLines text) ∧
    ((∃ m, Meta.parse text = .ok m) ↔ ∀ line ∈ splitLines text, Usable line) ∧
    ∀ e, Meta.parse text = .error e ↔
      ∃ before line rest, text = terminated before ++ line ++ rest ∧ (∀ l ∈ before, Ascii.newline ∉ l ∧ Usable l) ∧
        Ascii.newline ∉ line ∧ Offends line e ∧ Explains e.message line ∧ StartsAnew rest := by
  refine ⟨fun lines => isLines_iff, ⟨?_, ?_⟩, fun e => ⟨?_, ?_⟩⟩
  · rintro ⟨m, hm⟩
    exact usable_of_parse hm
  · intro hall
    exact foldlM_line_of_usable hall {}
  · intro h
    obtain ⟨before, line, rest, htext, hbefore, unbroken, hline, hrest⟩ := exists_place_of_error h
    exact ⟨before, line, rest, htext, hbefore, unbroken, hline, hline.explains, hrest⟩
  · rintro ⟨before, line, rest, rfl, hbefore, unbroken, hline, -, hrest⟩
    exact parse_of_offends hbefore unbroken hline hrest

example : Meta.parse (utf8 "status:TO\nexitcode:1x\ncg-mem:\n") =
    .error (.badField (utf8 "exitcode") ⟨.decimal, utf8 "1x", .malformed⟩) := rfl

end Isolate

end Stopwatch
