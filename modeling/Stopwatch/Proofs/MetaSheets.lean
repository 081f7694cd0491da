import Stopwatch.Proofs.MetaLines
import Stopwatch.Proofs.Visible

/-!
Meta files as they are written: lines with a key and a value, in any order and with other lines between them, each with
its end. What is read depends on the last line of each key alone, and six values that are written down are read back.
-/

namespace Stopwatch.Isolate

/-! ### What stands under a key -/

/-- The keys of a meta file. -/
inductive Key where
  | time
  | cgMem
  | oomKilled
  | exitCode
  | status
  | note
  deriving DecidableEq

/-- The word of a key. -/
def Key.word : Key → Bytes
  | .time => utf8 "time"
  | .cgMem => utf8 "cg-mem"
  | .oomKilled => utf8 "cg-oom-killed"
  | .exitCode => utf8 "exitcode"
  | .status => utf8 "status"
  | .note => utf8 "message"

/-- What is kept for a key. -/
inductive Entry where
  | seconds (x : Float)
  | count (n : Int64)
  | text (s : Bytes)

/-- What a value means under a key. -/
def Key.read : Key → Bytes → Except NumberError Entry
  | .time, value => (FloatReader.read value).map .seconds
  | .cgMem, value => (Integer.read value).map .count
  | .oomKilled, value => (Integer.read value).map .count
  | .exitCode, value => (Integer.read value).map .count
  | .status, value => .ok (.text value)
  | .note, value => .ok (.text value)

/-- The contents of a meta file, key by key. -/
def Meta.entry (m : Meta) : Key → Entry
  | .time => .seconds m.time
  | .cgMem => .count m.cgMem
  | .oomKilled => .count m.oomKilled
  | .exitCode => .count m.exitCode
  | .status => .text m.status
  | .note => .text m.note

theorem Meta.ext_entry {m m' : Meta} (h : ∀ k, m.entry k = m'.entry k) : m = m' := by
  have htime := Entry.seconds.inj (h .time)
  have hmem := Entry.count.inj (h .cgMem)
  have hoom := Entry.count.inj (h .oomKilled)
  have hcode := Entry.count.inj (h .exitCode)
  have hstatus := Entry.text.inj (h .status)
  have hnote := Entry.text.inj (h .note)
  cases m
  cases m'
  simp_all

theorem Key.colon_not_mem_word (k : Key) : Ascii.colon ∉ k.word := by
  cases k <;> decide

theorem Key.eq_of_word_eq {j k : Key} (h : j.word = k.word) : j = k := by
  revert h
  cases j <;> cases k <;> decide

/-- Something read and put in its place: it stands there then, and all else is as before. -/
theorem entry_of_map {α : Type} {x : Except NumberError α} {place : α → Meta} {wrap : α → Entry} {m m' : Meta} {k : Key}
    (h : x.map place = .ok m') (hown : ∀ a, (place a).entry k = wrap a)
    (hrest : ∀ a j, j ≠ k → (place a).entry j = m.entry j) :
    x.map wrap = .ok (m'.entry k) ∧ ∀ j, j ≠ k → m'.entry j = m.entry j := by
  obtain ⟨a, rfl, rfl⟩ := eq_ok_of_map h
  exact ⟨by rw [hown]; rfl, hrest a⟩

/-- A value changes what stands under its key, and nothing else. -/
theorem put_word {m m' : Meta} {k : Key} {value : Bytes} (h : m.put k.word value = .ok m') :
    k.read value = .ok (m'.entry k) ∧ ∀ j, j ≠ k → m'.entry j = m.entry j := by
  cases k with
  | time => exact entry_of_map (x := FloatReader.read value) h (fun _ => rfl) fun _ j hj => by cases j <;> trivial
  | cgMem => exact entry_of_map (x := Integer.read value) h (fun _ => rfl) fun _ j hj => by cases j <;> trivial
  | oomKilled => exact entry_of_map (x := Integer.read value) h (fun _ => rfl) fun _ j hj => by cases j <;> trivial
  | exitCode => exact entry_of_map (x := Integer.read value) h (fun _ => rfl) fun _ j hj => by cases j <;> trivial
  | status =>
    obtain rfl := Except.ok.inj h
    exact ⟨rfl, fun j hj => by cases j <;> trivial⟩
  | note =>
    obtain rfl := Except.ok.inj h
    exact ⟨rfl, fun j hj => by cases j <;> trivial⟩

/-- A value under any other word is passed over. -/
theorem put_of_unknown {m : Meta} {key : Bytes} (h : ∀ k : Key, key ≠ k.word) (value : Bytes) :
    m.put key value = .ok m := by
  have htime : key ≠ utf8 "time" := h .time
  have hmem : key ≠ utf8 "cg-mem" := h .cgMem
  have hoom : key ≠ utf8 "cg-oom-killed" := h .oomKilled
  have hcode : key ≠ utf8 "exitcode" := h .exitCode
  have hstatus : key ≠ utf8 "status" := h .status
  have hnote : key ≠ utf8 "message" := h .note
  simp [Meta.put, htime, hmem, hoom, hcode, hstatus, hnote]

/-! ### One line -/

/-- The value that a line gives a key, if it gives one. -/
def Key.valueIn (k : Key) (line : Bytes) : Option Bytes :=
  ((Bytes.cut Ascii.colon (dropReturn line)).filter fun parts => parts.1 = k.word).map Prod.snd

theorem Key.valueIn_eq_some_iff {k : Key} {line value : Bytes} : k.valueIn line = some value ↔ Gives line k.word value := by
  rw [Key.valueIn, Option.map_eq_some_iff]
  constructor
  · rintro ⟨⟨key, value⟩, hparts, rfl⟩
    obtain ⟨hcut, hkey⟩ := Option.filter_eq_some_iff.mp hparts
    rw [← of_decide_eq_true hkey]
    exact gives_of_cut hcut
  · intro hgives
    exact ⟨(k.word, value), by simp [cut_of_gives k.colon_not_mem_word hgives], rfl⟩

theorem Key.valueIn_eq_none_iff {k : Key} {line : Bytes} : k.valueIn line = none ↔ ∀ value, ¬ Gives line k.word value := by
  simp only [Option.eq_none_iff_forall_ne_some, ne_eq, Key.valueIn_eq_some_iff]

/-- A line that is taken in gives its key the value from then on, and leaves every other key alone. -/
theorem line_entry {m m' : Meta} {line : Bytes} (h : m.line line = .ok m') (k : Key) :
    (∀ value, k.valueIn line = some value → k.read value = .ok (m'.entry k)) ∧
      (k.valueIn line = none → m'.entry k = m.entry k) := by
  rw [Meta.line] at h
  split at h
  · cases h
  split at h
  · next hcut =>
    cases h
    simp [Key.valueIn, hcut]
  · next key value hcut =>
    have hput := eq_ok_of_mapError h
    have hvalue : k.valueIn line = if key = k.word then some value else none := by
      by_cases hkey : key = k.word <;> simp [Key.valueIn, hcut, hkey]
    rw [hvalue]
    by_cases hknown : ∃ j : Key, key = j.word
    · obtain ⟨j, rfl⟩ := hknown
      obtain ⟨hread, hrest⟩ := put_word hput
      by_cases hj : k = j
      · subst hj
        simpa using hread
      · have hne : j.word ≠ k.word := fun heq => hj (Key.eq_of_word_eq heq).symm
        simpa [hne] using hrest k hj
    · have hunknown : ∀ j : Key, key ≠ j.word := fun j heq => hknown ⟨j, heq⟩
      rw [put_of_unknown hunknown] at hput
      cases hput
      simp [hunknown k]

/-! ### All lines -/

/-- The last line of a key, and the value that it gives. -/
def LastGives (lines : List Bytes) (key value : Bytes) : Prop :=
  ∃ before line after, lines = before ++ line :: after ∧ Gives line key value ∧ ∀ l ∈ after, ∀ v, ¬ Gives l key v

/-- The value that the last line of a key gives, if there is a line of the key. -/
def Key.lastIn (k : Key) : List Bytes → Option Bytes
  | [] => none
  | line :: rest => (k.lastIn rest).or (k.valueIn line)

theorem Key.lastIn_eq_none_iff {k : Key} {lines : List Bytes} :
    k.lastIn lines = none ↔ ∀ line ∈ lines, ∀ value, ¬ Gives line k.word value := by
  induction lines with
  | nil => simp [Key.lastIn]
  | cons line rest ih => rw [Key.lastIn, Option.or_eq_none_iff, ih, Key.valueIn_eq_none_iff, List.forall_mem_cons, and_comm]

theorem Key.lastIn_eq_some_iff {k : Key} {lines : List Bytes} {value : Bytes} :
    k.lastIn lines = some value ↔ LastGives lines k.word value := by
  induction lines with
  | nil => simp [Key.lastIn, LastGives]
  | cons line rest ih =>
    rw [Key.lastIn, Option.or_eq_some_iff, ih, Key.lastIn_eq_none_iff, Key.valueIn_eq_some_iff]
    constructor
    · rintro (⟨before, last, after, rfl, hgives, hafter⟩ | ⟨hnone, hgives⟩)
      · exact ⟨line :: before, last, after, rfl, hgives, hafter⟩
      · exact ⟨[], line, rest, rfl, hgives, hnone⟩
    · rintro ⟨before, last, after, heq, hgives, hafter⟩
      cases before with
      | nil =>
        cases heq
        exact .inr ⟨hafter, hgives⟩
      | cons first before =>
        cases heq
        exact .inl ⟨before, last, after, rfl, hgives, hafter⟩

theorem foldlM_cons_eq_ok {line : Bytes} {rest : List Bytes} {m m' : Meta}
    (h : (line :: rest).foldlM Meta.line m = .ok m') :
    ∃ mid, m.line line = .ok mid ∧ rest.foldlM Meta.line mid = .ok m' := by
  rw [List.foldlM_cons] at h
  cases hline : m.line line with
  | error e => rw [hline] at h; cases h
  | ok mid => rw [hline] at h; exact ⟨mid, rfl, h⟩

/-- Of all lines, the last one of a key decides what stands under it. -/
theorem foldlM_line_entry {lines : List Bytes} {m m' : Meta} (h : lines.foldlM Meta.line m = .ok m') (k : Key) :
    (∀ value, k.lastIn lines = some value → k.read value = .ok (m'.entry k)) ∧
      (k.lastIn lines = none → m'.entry k = m.entry k) := by
  induction lines generalizing m with
  | nil =>
    cases h
    simp [Key.lastIn]
  | cons line rest ih =>
    obtain ⟨mid, hline, hrest⟩ := foldlM_cons_eq_ok h
    obtain ⟨hsome, hnone⟩ := ih hrest
    obtain ⟨hfirst, hkeep⟩ := line_entry hline k
    rw [Key.lastIn]
    cases hlast : k.lastIn rest with
    | some value => simpa [hlast] using hsome
    | none =>
      rw [Option.none_or, hnone hlast]
      exact ⟨hfirst, hkeep⟩

/-- Usable lines with the same last lines are read alike. -/
theorem foldlM_line_congr {lines lines' : List Bytes} (h : ∀ line ∈ lines, Usable line)
    (h' : ∀ line ∈ lines', Usable line) (hlast : ∀ k : Key, k.lastIn lines = k.lastIn lines') (m : Meta) :
    lines.foldlM Meta.line m = lines'.foldlM Meta.line m := by
  obtain ⟨r, hr⟩ := foldlM_line_of_usable h m
  obtain ⟨r', hr'⟩ := foldlM_line_of_usable h' m
  rw [hr, hr']
  congr 1
  refine Meta.ext_entry fun k => ?_
  obtain ⟨hsome, hnone⟩ := foldlM_line_entry hr k
  obtain ⟨hsome', hnone'⟩ := foldlM_line_entry hr' k
  rw [hlast k] at hsome hnone
  cases hk : k.lastIn lines' with
  | some value => exact Except.ok.inj ((hsome value hk).symm.trans (hsome' value hk))
  | none => rw [hnone hk, hnone' hk]

/-! ### Texts line by line -/

/-- A line of a text, without its end. Before a line feed alone it does not end with a carriage return: that return would be
part of the end. -/
structure Row where
  line : Bytes
  returned : Bool
  unbroken : Ascii.newline ∉ line
  whole : returned = false → line.getLast? ≠ some Ascii.carriageReturn

/-- A line with its carriage return. -/
def Row.raw (r : Row) : Bytes := r.line ++ if r.returned then [Ascii.carriageReturn] else []

theorem Row.dropReturn_raw (r : Row) : dropReturn r.raw = r.line := by
  rw [Row.raw]
  cases hreturned : r.returned with
  | true => simp [dropReturn]
  | false => simp [dropReturn, r.whole hreturned]

theorem Row.newline_not_mem_raw (r : Row) : Ascii.newline ∉ r.raw := by
  rw [Row.raw, List.mem_append, not_or]
  refine ⟨r.unbroken, ?_⟩
  split <;> decide

theorem Row.gives_raw {r : Row} {key value : Bytes} : Gives r.raw key value ↔ r.line = key ++ Ascii.colon :: value := by
  rw [Gives, r.dropReturn_raw]

/-- A text as it is written: lines that end with a line feed, and perhaps a last one that does not. -/
structure Sheet where
  ended : List Row
  last : Option Row

/-- All lines of a sheet. -/
def Sheet.rows (s : Sheet) : List Row := s.ended ++ s.last.toList

/-- The text of a sheet. -/
def Sheet.text (s : Sheet) : Bytes := terminated (s.ended.map Row.raw) ++ (s.last.toList.flatMap Row.raw)

/-- Reading a text takes its lines one by one, a last one without an end like the others. -/
theorem Sheet.parse_text (s : Sheet) : Meta.parse s.text = (s.rows.map Row.raw).foldlM Meta.line {} := by
  have hended : ∀ line ∈ s.ended.map Row.raw, Ascii.newline ∉ line := by
    intro line hline
    obtain ⟨r, -, rfl⟩ := List.mem_map.mp hline
    exact r.newline_not_mem_raw
  rw [Meta.parse, Sheet.text, splitLines_terminated hended, Sheet.rows, List.map_append, List.foldlM_append,
    List.foldlM_append]
  congr 1
  funext m
  cases s.last with
  | none => rfl
  | some r =>
    rw [Option.toList_some, List.flatMap_singleton, splitLines_unterminated r.newline_not_mem_raw]
    split
    · next hempty =>
      rw [List.map_singleton, hempty]
      rfl
    · rfl

/-- A line for a key. -/
def Key.line (k : Key) (value : Bytes) : Bytes := k.word ++ Ascii.colon :: value

/-- The last line of a key on a sheet gives it a value. -/
def Sheet.Last (s : Sheet) (k : Key) (value : Bytes) : Prop :=
  ∃ before r after, s.rows = before ++ r :: after ∧ r.line = k.line value ∧ ∀ r' ∈ after, ∀ v, r'.line ≠ k.line v

theorem Sheet.last_iff {s : Sheet} {k : Key} {value : Bytes} :
    s.Last k value ↔ k.lastIn (s.rows.map Row.raw) = some value := by
  rw [Key.lastIn_eq_some_iff]
  constructor
  · rintro ⟨before, r, after, hrows, hline, hafter⟩
    refine ⟨before.map Row.raw, r.raw, after.map Row.raw, by simp [hrows], Row.gives_raw.mpr hline, ?_⟩
    rw [List.forall_mem_map]
    exact fun r' hr' v hgives => hafter r' hr' v (Row.gives_raw.mp hgives)
  · rintro ⟨before, line, after, hrows, hgives, hafter⟩
    obtain ⟨before', rest, hsplit, rfl, hrest⟩ := List.map_eq_append_iff.mp hrows
    obtain ⟨r, after', rfl, rfl, rfl⟩ := List.map_eq_cons_iff.mp hrest
    rw [List.forall_mem_map] at hafter
    exact ⟨before', r, after', hsplit, Row.gives_raw.mp hgives,
      fun r' hr' v hline => hafter r' hr' v (Row.gives_raw.mpr hline)⟩

instance (s : Sheet) (k : Key) (value : Bytes) : Decidable (s.Last k value) := decidable_of_iff _ Sheet.last_iff.symm

/-- Lines that do not keep a file from being read: those without a colon, those of other words, and those that give a key
something that can be read. -/
inductive Acceptable : Bytes → Prop
  | plain {line : Bytes} (h : Ascii.colon ∉ line) : Acceptable line
  | unknown (key value : Bytes) (hkey : Ascii.colon ∉ key) (h : ∀ k : Key, key ≠ k.word) :
      Acceptable (key ++ Ascii.colon :: value)
  | known (k : Key) (value : Bytes) {e : Entry} (h : k.read value = .ok e) : Acceptable (k.line value)

/-- What an acceptable line gives a key can be read. -/
theorem Acceptable.read {line : Bytes} (h : Acceptable line) {k : Key} {value : Bytes} (hline : line = k.line value) :
    ∃ e, k.read value = .ok e := by
  have hcut := Bytes.cut_append k.colon_not_mem_word value
  cases h with
  | plain h => exact absurd (hline ▸ List.mem_append_right _ List.mem_cons_self) h
  | unknown key value' hkey h =>
    rw [← Key.line, ← hline, Bytes.cut_append hkey] at hcut
    exact absurd (Prod.mk.inj (Option.some.inj hcut)).1 (h k)
  | @known j value' e h =>
    rw [← Key.line, ← hline, Key.line, Bytes.cut_append j.colon_not_mem_word] at hcut
    obtain ⟨hword, rfl⟩ := Prod.mk.inj (Option.some.inj hcut)
    obtain rfl := Key.eq_of_word_eq hword
    exact ⟨e, h⟩

/-- Short enough, a line is usable if it is acceptable. -/
theorem Row.usable {r : Row} (short : r.raw.length < lineLimit) (h : Acceptable r.line) : Usable r.raw := by
  refine ⟨short, fun value hgives => ?_, fun key hkey value hgives => ?_⟩
  · obtain ⟨e, he⟩ : ∃ e, Key.time.read value = .ok e := h.read (Row.gives_raw.mp hgives)
    obtain ⟨x, hx, -⟩ := eq_ok_of_map he
    exact ⟨x, hx⟩
  · have hcount : ∃ k : Key, key = k.word ∧ k.read value = (Integer.read value).map .count := by
      simp only [countKeys, List.mem_cons, List.not_mem_nil, or_false] at hkey
      rcases hkey with rfl | rfl | rfl
      · exact ⟨.cgMem, rfl, rfl⟩
      · exact ⟨.oomKilled, rfl, rfl⟩
      · exact ⟨.exitCode, rfl, rfl⟩
    obtain ⟨k, rfl, hread⟩ := hcount
    obtain ⟨e, he⟩ := h.read (Row.gives_raw.mp hgives)
    obtain ⟨n, hn, -⟩ := eq_ok_of_map (hread ▸ he)
    exact ⟨n, hn⟩

theorem Sheet.usable {s : Sheet} (h : ∀ r ∈ s.rows, r.raw.length < lineLimit ∧ Acceptable r.line) :
    ∀ line ∈ s.rows.map Row.raw, Usable line := by
  rw [List.forall_mem_map]
  exact fun r hr => r.usable (h r hr).1 (h r hr).2

/-! ### Writing and reading back -/

/-- How contents are written, key by key. The text for the time is given: more than one is read as the same number. -/
def Meta.spelling (m : Meta) (time : Bytes) : Key → Bytes
  | .time => time
  | .cgMem => Integer.ofInt64 m.cgMem
  | .oomKilled => Integer.ofInt64 m.oomKilled
  | .exitCode => Integer.ofInt64 m.exitCode
  | .status => m.status
  | .note => m.note

theorem Meta.read_spelling {m : Meta} {time : Bytes} (htime : FloatReader.read time = .ok m.time) (k : Key) :
    k.read (m.spelling time k) = .ok (m.entry k) := by
  have hcount : ∀ n, (Integer.read (Integer.ofInt64 n)).map Entry.count = .ok (.count n) := by
    intro n
    rw [Integer.read_ofInt64]
    rfl
  cases k with
  | time => exact congrArg (Except.map Entry.seconds) htime
  | cgMem => exact hcount m.cgMem
  | oomKilled => exact hcount m.oomKilled
  | exitCode => exact hcount m.exitCode
  | status => rfl
  | note => rfl

/-- A text that can stand behind a key, before a line feed alone or before a carriage return and a line feed. -/
structure OnOneLine (s : Bytes) : Prop where
  unbroken : Ascii.newline ∉ s
  whole : s.getLast? ≠ some Ascii.carriageReturn

theorem onOneLine_of_isVisible {s : Bytes} (h : IsVisible s) : OnOneLine s :=
  ⟨h.not_mem (by decide), fun hlast => h.not_mem (by decide) (List.mem_of_getLast? hlast)⟩

theorem Meta.onOneLine_spelling {m : Meta} {time : Bytes} (htime : FloatReader.read time = .ok m.time)
    (hstatus : OnOneLine m.status) (hnote : OnOneLine m.note) (k : Key) : OnOneLine (m.spelling time k) := by
  cases k with
  | time => exact onOneLine_of_isVisible (FloatReader.isVisible_of_read htime)
  | cgMem => exact onOneLine_of_isVisible (Integer.isVisible_ofInt64 m.cgMem)
  | oomKilled => exact onOneLine_of_isVisible (Integer.isVisible_ofInt64 m.oomKilled)
  | exitCode => exact onOneLine_of_isVisible (Integer.isVisible_ofInt64 m.exitCode)
  | status => exact hstatus
  | note => exact hnote

/-- A value on one line can be written behind its key, with either end. -/
theorem exists_row {value : Bytes} (h : OnOneLine value) (k : Key) (returned : Bool) :
    ∃ r : Row, r.line = k.line value ∧ r.returned = returned := by
  have hunbroken : Ascii.newline ∉ k.line value := by
    rw [Key.line, List.mem_append, List.mem_cons]
    rintro (hword | hcolon | hvalue)
    · revert hword
      cases k <;> decide
    · exact absurd hcolon (by decide)
    · exact h.unbroken hvalue
  have hwhole : (k.line value).getLast? ≠ some Ascii.carriageReturn := by
    rw [Key.line, List.getLast?_append_of_ne_nil _ (List.cons_ne_nil _ _)]
    cases hvalue : value with
    | nil => decide
    | cons b rest =>
      rw [List.getLast?_cons_cons, ← hvalue]
      exact h.whole
  exact ⟨⟨k.line value, returned, hunbroken, fun _ => hwhole⟩, rfl, rfl⟩

/-- Contents are read back from every text that writes them down: the last line of each key gives its value, and the other
lines are acceptable, wherever they stand. -/
theorem parse_of_last {m : Meta} {time : Bytes} (htime : FloatReader.read time = .ok m.time) {s : Sheet}
    (short : ∀ r ∈ s.rows, r.raw.length < lineLimit)
    (company : ∀ r ∈ s.rows, Acceptable r.line ∨ ∃ k, r.line = Key.line k (m.spelling time k))
    (last : ∀ k, s.Last k (m.spelling time k)) : Meta.parse s.text = .ok m := by
  have hacceptable : ∀ r ∈ s.rows, r.raw.length < lineLimit ∧ Acceptable r.line := by
    intro r hr
    refine ⟨short r hr, ?_⟩
    rcases company r hr with h | ⟨k, h⟩
    · exact h
    · exact h ▸ .known k _ (m.read_spelling htime k)
  obtain ⟨m', hm⟩ := foldlM_line_of_usable (Sheet.usable hacceptable) {}
  rw [s.parse_text, hm]
  congr 1
  refine Meta.ext_entry fun k => ?_
  have hread := (foldlM_line_entry hm k).1 _ (Sheet.last_iff.mp (last k))
  exact Except.ok.inj (hread.symm.trans (m.read_spelling htime k))

/-- Contents that are written down are read back, in whatever order the lines of the six keys stand, whatever acceptable
lines stand before and between them, and however the lines end. Beyond that, texts of acceptable lines are read alike if
the last lines of each key are the same: the last line of a key wins, lines of different keys may change places, and
lines without a key may come and go. All contents whose texts stand on one line can be written so. -/
theorem written_read_back :
    (∀ (m : Meta) (time : Bytes), FloatReader.read time = .ok m.time → ∀ s : Sheet,
      (∀ r ∈ s.rows, r.raw.length < lineLimit) →
      (∀ r ∈ s.rows, Acceptable r.line ∨ ∃ k, r.line = Key.line k (m.spelling time k)) →
      (∀ k, s.Last k (m.spelling time k)) → Meta.parse s.text = .ok m) ∧
    (∀ s s' : Sheet, (∀ r ∈ s.rows ++ s'.rows, r.raw.length < lineLimit ∧ Acceptable r.line) →
      (∀ k value, s.Last k value ↔ s'.Last k value) → Meta.parse s.text = Meta.parse s'.text) ∧
    ∀ (m : Meta) (time : Bytes), FloatReader.read time = .ok m.time → OnOneLine m.status → OnOneLine m.note →
      ∀ (k : Key) (returned : Bool), ∃ r : Row, r.line = k.line (m.spelling time k) ∧ r.returned = returned := by
  refine ⟨fun m time htime s short company last => parse_of_last htime short company last, fun s s' hrows hlast => ?_,
    fun m time htime hstatus hnote k => exists_row (m.onOneLine_spelling htime hstatus hnote k) k⟩
  rw [List.forall_mem_append] at hrows
  rw [s.parse_text, s'.parse_text]
  refine foldlM_line_congr (Sheet.usable hrows.1) (Sheet.usable hrows.2) (fun k => ?_) {}
  exact Option.ext fun value => by rw [← Sheet.last_iff, ← Sheet.last_iff, hlast k value]

/-- The least and the greatest count, a status with colons that another one stands before, lines that are passed over, both
kinds of ends, and no end after the last line. -/
theorem written_read_back_mixed :
    Meta.parse (utf8 "status:RE\nbogus\r\ncg-mem:-9223372036854775808\r\nstatus:a::b\r\nmessage:\ntime:0\n"
      ++ utf8 "exitcode:-1\n:\ncg-oom-killed:9223372036854775807") =
      .ok ⟨0.0, -9223372036854775808, 9223372036854775807, -1, utf8 "a::b", []⟩ := by
  let m : Meta := ⟨0.0, -9223372036854775808, 9223372036854775807, -1, utf8 "a::b", []⟩
  let s : Sheet :=
    { ended :=
        [⟨utf8 "status:RE", false, by decide, by decide⟩, ⟨utf8 "bogus", true, by decide, by decide⟩,
          ⟨utf8 "cg-mem:-9223372036854775808", true, by decide, by decide⟩,
          ⟨utf8 "status:a::b", true, by decide, by decide⟩, ⟨utf8 "message:", false, by decide, by decide⟩,
          ⟨utf8 "time:0", false, by decide, by decide⟩, ⟨utf8 "exitcode:-1", false, by decide, by decide⟩,
          ⟨utf8 ":", false, by decide, by decide⟩]
      last := some ⟨utf8 "cg-oom-killed:9223372036854775807", false, by decide, by decide⟩ }
  have htime : FloatReader.read (utf8 "0") = .ok m.time := rfl
  have short : ∀ r ∈ s.rows, r.raw.length < lineLimit := by decide +kernel
  have last : ∀ k, s.Last k (m.spelling (utf8 "0") k) := by
    intro k
    cases k <;> decide +kernel
  have company : ∀ r ∈ s.rows, Acceptable r.line ∨ ∃ k, r.line = Key.line k (m.spelling (utf8 "0") k) := by
    have hstatus : Acceptable (utf8 "status:RE") := .known .status (utf8 "RE") rfl
    have hbogus : Acceptable (utf8 "bogus") := .plain (by decide)
    have hcolon : Acceptable (utf8 ":") := .unknown [] [] (by decide) fun k => by cases k <;> decide
    simp only [s, Sheet.rows, Option.toList_some, List.cons_append, List.nil_append, List.forall_mem_cons]
    exact ⟨.inl hstatus, .inl hbogus, .inr ⟨.cgMem, by decide +kernel⟩, .inr ⟨.status, rfl⟩, .inr ⟨.note, rfl⟩,
      .inr ⟨.time, rfl⟩, .inr ⟨.exitCode, by decide +kernel⟩, .inl hcolon, .inr ⟨.oomKilled, by decide +kernel⟩, List.forall_mem_nil _⟩
  exact written_read_back.1 m (utf8 "0") htime s short company last

end Stopwatch.Isolate
