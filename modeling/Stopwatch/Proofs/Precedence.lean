import Mathlib.Tactic.Common
import Stopwatch.CommandLine.Options
import Stopwatch.Proofs.FlagKinds
import Stopwatch.Proofs.Library
import Stopwatch.Proofs.Requests

/-!
Which source a setting has its value from. For each setting on its own, a flag that was given comes first, then its
variable in the environment, then the variable in `.env`, then its key in the first settings file of the search, and last
the default. This holds with every library that keeps to what its users rely on.
-/

namespace Stopwatch

namespace Settings

/-! ### The first settings file -/

/-- What a search finds in some directories, in their order: the file of the first one that has any. -/
inductive Surroundings.Finds (lib : Library) (around : Surroundings) : List Bytes → Option Bytes → Prop
  | nowhere : around.Finds lib [] none
  | here {d text : Bytes} {ds : List Bytes} (h : lib.fileIn around.read around.environment d = some text) :
    around.Finds lib (d :: ds) (some text)
  | later {d : Bytes} {ds : List Bytes} {found : Option Bytes} (h : lib.fileIn around.read around.environment d = none)
    (rest : around.Finds lib ds found) : around.Finds lib (d :: ds) found

theorem finds_iff {lib : Library} {around : Surroundings} {ds : List Bytes} {found : Option Bytes} :
    around.Finds lib ds found ↔ ds.findSome? (lib.fileIn around.read around.environment) = found := by
  constructor
  · intro h
    induction h with
    | nowhere => rfl
    | here h => rw [List.findSome?_cons, h]
    | later h _ ih => rw [List.findSome?_cons, h, ih]
  · rintro rfl
    induction ds with
    | nil => exact .nowhere
    | cons d ds ih =>
      cases h : lib.fileIn around.read around.environment d with
      | some text => rw [List.findSome?_cons, h]; exact .here h
      | none => rw [List.findSome?_cons, h]; exact .later h ih

/-! ### Variables -/

/-- The value of a variable in the file `.env`. A value with a zero octet is none. -/
def Surroundings.dotEnv? (lib : Library) (around : Surroundings) (name : Bytes) : Option Bytes :=
  (((around.read (utf8 ".env")).bind lib.variables?).bind fun vars => vars.lookup name).filter
    fun value => !value.contains Ascii.nul

/-- The value of a variable: that of the environment if it defines the variable at all, else that of `.env`. An empty
value is none. -/
def Surroundings.defined? (lib : Library) (around : Surroundings) (name : Bytes) : Option Bytes :=
  ((around.environment.lookup name).or (around.dotEnv? lib name)).filter fun value => !value.isEmpty

/-- The variables that the sources see. -/
theorem lookup_variables {lib : Library} (hlib : lib.Documented) (around : Surroundings) {name : Bytes}
    (h : name ≠ [] ∧ Ascii.nul ∉ name) :
    ((around.variables lib).lookup name).filter (fun v => !v.isEmpty) = around.defined? lib name := by
  have hhold : ∀ value, DotEnv.isHoldable (name, value) = !value.contains Ascii.nul := by
    intro value
    simp [DotEnv.isHoldable, h.1, h.2]
  rw [Surroundings.variables, Surroundings.defined?, Surroundings.dotEnv?]
  cases (around.read (utf8 ".env")).bind lib.variables? with
  | none => rw [Option.bind_none, Option.filter_none, Option.or_none]
  | some vars => simp only [hlib.lookup_extend, hhold, Option.bind_some]

/-! ### Flags -/

open CommandLine

/-- The flag for a setting, if it has one. -/
def Setting.flag : Setting → Option Bytes
  | .url => some (utf8 "nats-url")
  | .minDurationMs => some (utf8 "min-duration")
  | .timeLimitMs => some (utf8 "time-limit")
  | .memoryLimitKb => some (utf8 "memory-limit")
  | .maxConcurrentJobs => some (utf8 "max-jobs")
  | .workDir => some (utf8 "workdir")
  | _ => none

theorem exists_setting_of_settingOf {name key : Bytes} (h : settingOf name = some key) :
    ∃ k : Setting, k.field.key = key ∧ k.flag = some name := by
  obtain ⟨e, he, hsome⟩ := List.exists_of_findSome?_eq_some h
  obtain ⟨hname, hkey⟩ : utf8 e.1 = name ∧ utf8 e.2 = key := by simpa using hsome
  have hall : ∀ e ∈ [("nats-url", "nats.url"), ("min-duration", "bench.mindurationms"),
      ("time-limit", "bench.timelimitms"), ("memory-limit", "bench.memorylimitkb"),
      ("max-jobs", "bench.maxconcurrentjobs"), ("workdir", "bench.workdir")],
      ∃ k ∈ Setting.all, k.field.key = utf8 e.2 ∧ k.flag = some (utf8 e.1) := by decide +kernel
  obtain ⟨k, -, hk⟩ := hall e he
  rw [hname, hkey] at hk
  exact ⟨k, hk⟩

theorem exists_setting_of_mem_settingsOf {given : Flags.Parsed} {e : Bytes × Value} (h : e ∈ settingsOf given) :
    ∃ k : Setting, e.1 = k.field.key := by
  obtain ⟨⟨name, v⟩, -, hsome⟩ := List.mem_filterMap.mp h
  obtain ⟨key, hkey, rfl⟩ := Option.map_eq_some_iff.mp hsome
  obtain ⟨k, hk, -⟩ := exists_setting_of_settingOf hkey
  exact ⟨k, hk.symm⟩

theorem settingOf_flag {k : Setting} {name : Bytes} (h : k.flag = some name) : settingOf name = some k.field.key := by
  cases k <;> cases h <;> rfl

theorem Setting.eq_of_key {k k' : Setting} (h : k.field.key = k'.field.key) : k = k' := by
  have hall : ∀ k ∈ Setting.all, ∀ k' ∈ Setting.all, k.field.key = k'.field.key → k = k' := by decide +kernel
  exact hall k k.mem_all k' k'.mem_all h

/-- The value that a command line gives a setting. -/
def Setting.given? (k : Setting) (given : Flags.Parsed) : Option Value := (k.flag.bind given.get?).map settingValue

theorem lookup_settingsOf (given : Flags.Parsed) (k : Setting) :
    (settingsOf given).lookup k.field.key = k.given? given := by
  obtain ⟨flags, words⟩ := given
  rw [settingsOf, Setting.given?]
  induction flags with
  | nil => cases k.flag <;> rfl
  | cons e flags ih =>
    obtain ⟨name, v⟩ := e
    by_cases hflag : k.flag = some name
    · rw [List.filterMap_cons_some (b := (k.field.key, settingValue v)) (by simp [settingOf_flag hflag]), hflag]
      simp [Flags.Parsed.get?]
    · have hrest : (k.flag.bind fun flag => Flags.Parsed.get? ⟨(name, v) :: flags, words⟩ flag) =
          k.flag.bind fun flag => Flags.Parsed.get? ⟨flags, words⟩ flag := by
        cases hk : k.flag with
        | none => rfl
        | some flag =>
          have hne : (flag == name) = false := by
            rw [beq_eq_false_iff_ne]
            rintro rfl
            exact hflag hk
          simp [Flags.Parsed.get?, List.lookup_cons, hne]
      rw [hrest, ← ih]
      cases hsetting : settingOf name with
      | none => rw [List.filterMap_cons_none (by simp [hsetting])]
      | some key =>
        have hne : (k.field.key == key) = false := by
          rw [beq_eq_false_iff_ne]
          rintro rfl
          obtain ⟨k', hkey, hflag'⟩ := exists_setting_of_settingOf hsetting
          rw [Setting.eq_of_key hkey] at hflag'
          exact hflag hflag'
        rw [List.filterMap_cons_some (b := (key, settingValue v)) (by simp [hsetting]), List.lookup_cons, hne]

/-- A value that a flag gives is of the type of its setting. -/
theorem Setting.isSome_read?_given {c : Command} {given : Flags.Parsed} (h : given.Understood (c.flags ++ [helpFlag]))
    {k : Setting} {v : Value} (hv : k.given? given = some v) : (k.read? v).isSome := by
  obtain ⟨w, hw, rfl⟩ := Option.map_eq_some_iff.mp hv
  obtain ⟨name, hname, hget⟩ := Option.bind_eq_some_iff.mp hw
  obtain ⟨spec, hspec, hspecName, hkind⟩ := h _ (Flags.Parsed.mem_given_of_get? hget)
  have hall : ∀ c ∈ Command.all, ∀ spec ∈ c.flags ++ [helpFlag], ∀ k ∈ Setting.all,
      k.flag = some spec.name → spec.kind = k.kind := by decide +kernel
  have hk := hall c (by cases c <;> decide) spec hspec k k.mem_all (by rw [hspecName, hname])
  rw [hk] at hkind
  cases w with
  | text s => simp [Setting.read?, settingValue, Value.text?, hkind, Flags.Given.kind]
  | int n => simp [Setting.read?, settingValue, Value.whole?, hkind, Flags.Given.kind]
  | truth b => cases k <;> cases hkind
  | duration ns => cases k <;> cases hkind

/-! ### Precedence -/

/-- The value as sources write it. -/
def Datum.value : Datum → Value
  | .text s => .text s
  | .whole n => .int n

/-- The value of a setting by precedence: of its flag, of its variable, of its key in the file, or the default. -/
def Setting.chosen (lib : Library) (given : Flags.Parsed) (around : Surroundings) (file : Table) (k : Setting) : Value :=
  ((k.given? given).or (((around.defined? lib k.field.variableName).map Value.text).or (file.at? k.field))).getD
    (k.datum unchanged).value

/-- Sources whose values fit their fields. -/
structure Fitting (lib : Library) (given : Flags.Parsed) (around : Surroundings) (file : Table) : Prop where
  /-- The file sets fields, and besides them only keys that have nothing to do with any. -/
  plain : ∀ key ∈ leaves file, Plain key
  /-- No variable stands for a whole section or for the programs. -/
  unset : ∀ name ∈ [utf8 "FIBBENCH_NATS", utf8 "FIBBENCH_BENCH", programsField.variableName],
    around.defined? lib name = none
  /-- The programs of the file are no table, and they fit. -/
  programs : (∀ t, file.at? programsField ≠ some (.table t)) ∧
    ∃ s, lib.decode (programsOnly (file.at? programsField)) = .ok s
  typed : ∀ k : Setting, k.given? given = none → (k.read? (k.chosen lib given around file)).isSome

/-- The sources that are read around a command line. -/
def Surroundings.sources (lib : Library) (around : Surroundings) (given : Flags.Parsed) (file : Table) : Sources :=
  { flags := settingsOf given, environment := around.variables lib, file }

section

variable {lib : Library} (hlib : lib.Documented) {given : Flags.Parsed} {around : Surroundings} {file : Table}

include hlib in
theorem fromEnvironment?_eq {key : Bytes} (h : variableName key ≠ [] ∧ Ascii.nul ∉ variableName key) :
    (around.sources lib given file).fromEnvironment? key = around.defined? lib (variableName key) :=
  lookup_variables hlib around h

include hlib in
theorem fromEnvironment?_field {f : Field} (hf : f ∈ fields) :
    (around.sources lib given file).fromEnvironment? f.key = around.defined? lib f.variableName := by
  have hname := Field.variableName_of_mem f hf
  rw [fromEnvironment?_eq hlib (hname ▸ Field.isHoldable_of_mem f hf), hname]

include hlib in
theorem Fitting.regular (h : Fitting lib given around file) : (around.sources lib given file).Regular where
  flags := fun _ he => exists_setting_of_mem_settingsOf he
  file := h.plain
  defaults := by
    have hleaves : leaves defaults = Setting.all.map fun k => k.field.key := rfl
    intro key hkey
    obtain ⟨k, -, hk⟩ := List.mem_map.mp (hleaves ▸ hkey : key ∈ Setting.all.map fun k => k.field.key)
    exact ⟨k, hk.symm⟩
  complete := by
    intro k
    refine ⟨(k.datum unchanged).value, by cases k <;> rfl, ?_, fun t => ?_⟩
    · cases k <;> exact Value.noConfusion
    · cases k <;> exact Value.noConfusion
  sections := by
    intro f hf
    rcases Field.group_of_mem f hf with hgroup | hgroup
    · rw [hgroup, fromEnvironment?_eq hlib (by decide)]
      exact h.unset _ (by decide)
    · rw [hgroup, fromEnvironment?_eq hlib (by decide)]
      exact h.unset _ (by decide)
  programs := by
    rw [fromEnvironment?_field hlib (List.mem_append_right _ (List.mem_singleton.mpr rfl))]
    exact h.unset _ (by simp)
  noPrograms := rfl

include hlib in
/-- The table of all sources gives each setting its value by precedence. -/
theorem Fitting.entry_setting (h : Fitting lib given around file) (k : Setting) :
    entry ((lib.gather (around.sources lib given file)).sectionOf k.field.group) k.field.name =
      some (k.chosen lib given around file) := by
  have hflags : (around.sources lib given file).flags.lookup k.field.key = k.given? given := lookup_settingsOf given k
  have hdefault : ((around.sources lib given file).defaults.sectionOf k.field.group).get? k.field.part =
      some (k.datum unchanged).value := by cases k <;> rfl
  rw [hlib.entry_setting _ (h.regular hlib), hflags, fromEnvironment?_field hlib k.field_mem_fields, hdefault,
    Setting.chosen]
  cases k.given? given with
  | some v => rfl
  | none =>
    cases around.defined? lib k.field.variableName with
    | some text => rfl
    | none => cases h : file.at? k.field <;> simp [Surroundings.sources, h]

end

theorem Setting.datum_withPrograms (k : Setting) (s : Stopwatch.Settings) : k.datum s.withPrograms = k.datum s := by
  rw [Settings.withPrograms]
  split
  · cases k <;> rfl
  · rfl

/-- Settings are loaded, and each has its value by precedence from its own sources alone. The settings file is the first
one in the given directories that have a name, then in `./configs`, then in the working directory, then in
`/etc/fib-bench/`; without any, it sets nothing. -/
theorem load_by_precedence {lib : Library} (hlib : lib.Documented) {c : Command} {given : Flags.Parsed}
    (hgiven : given.Understood (c.flags ++ [helpFlag])) {around : Surroundings} {directories : List Bytes}
    {found : Option Bytes} {file : Table}
    (hfound : around.Finds lib
      (directories.filter (fun d => !d.isEmpty) ++ [utf8 "./configs", utf8 ".", utf8 "/etc/fib-bench/"]) found)
    (hfile : found.elim (some []) lib.table? = some file) (h : Fitting lib given around file) :
    ∃ s, load lib around directories (settingsOf given) = .ok s ∧
      ∀ k : Setting, k.read? (k.chosen lib given around file) = some (k.datum s) := by
  have htyped : ∀ k : Setting, (k.read? (k.chosen lib given around file)).isSome := by
    intro k
    cases hk : k.given? given with
    | none => exact h.typed k hk
    | some v =>
      rw [Setting.chosen, hk]
      exact Setting.isSome_read?_given hgiven hk
  obtain ⟨hlist, alone, halone⟩ := h.programs
  obtain ⟨s, hprograms, hs⟩ := Setting.exists_settings htyped alone.bench.programs
  have hfind : findFile lib around directories = found := finds_iff.mp hfound
  have hsources : sources? lib around directories (settingsOf given) = some (around.sources lib given file) := by
    rw [sources?, hfind]
    cases found with
    | none =>
      cases hfile
      rfl
    | some text =>
      have htable : lib.table? text = some file := hfile
      simp only [htable]
      rfl
  have hdecode : lib.decode (lib.gather (around.sources lib given file)) = .ok s := by
    refine hlib.decode_eq _ s alone (fun k => ⟨_, h.entry_setting hlib k, hs k⟩) ?_ hprograms.symm
    rw [hlib.entry_programs _ (h.regular hlib) hlist]
    exact halone
  refine ⟨s.withPrograms, ?_, fun k => ?_⟩
  · simp only [load, hsources, hdecode]
  · rw [k.datum_withPrograms]
    exact hs k

/-- Whether a value is a list without items. -/
def Value.isEmptyList : Value → Bool
  | .list [] => true
  | _ => false

theorem Value.eq_of_isEmptyList {v : Value} (h : v.isEmptyList = true) : v = .list [] := by
  unfold isEmptyList at h
  split at h
  · rfl
  · cases h

/-- Sources that disagree. The queue group is defined in the environment, but empty. A settings file is in every directory
of the search but the first, which is given with a path from the root. -/
def disagreeing : Surroundings :=
  { directory := [utf8 "srv", utf8 "work"]
    environment := [(utf8 "FIBBENCH_NATS_URL", utf8 "a"), (utf8 "FIBBENCH_NATS_QUEUEGROUP", [])]
    folder :=
      [(utf8 ".env", utf8 "FIBBENCH_NATS_URL=b\nFIBBENCH_NATS_QUEUEGROUP=b\nFIBBENCH_NATS_REQUESTSUBJECT=b\n" ++
          utf8 "FIBBENCH_BENCH_TIMELIMITMS=0x20\nFIBBENCH_BENCH_MINDURATIONMS=6\n"),
       (utf8 "/etc/fib-bench/config.yaml", utf8 "nats:\n  resultSubject: f\n"),
       (utf8 "config.yaml", utf8 "nats:\n  queueGroup: e\n"),
       (utf8 "configs/config.yaml", utf8 "nats:\n  queueGroup: d\n"),
       (utf8 "/srv/shared/config.yml", utf8 "nats:\n  url: c\n  queueGroup: c\n  requestSubject: c\nbench:\n" ++
          utf8 "  minDurationMs: 7\n  timeLimitMs: 7\n  maxConcurrentJobs: 3\n  programs: []\n")] }

/-- What they come to when the least duration is given by its flag, as zero. -/
def agreed : Stopwatch.Settings :=
  { bus := { unchanged.bus with url := utf8 "a", requestSubject := utf8 "b", queueGroup := utf8 "c" }
    bench := { unchanged.bench with minDurationMs := 0, timeLimitMs := 32, maxConcurrentJobs := 3 } }

theorem load_by_precedence_disagreeing :
    let directories := [utf8 "/opt/bench", [], utf8 "../shared"]
    ∃ given file s, Flags.parse (Command.run.flags ++ [helpFlag]) [utf8 "--min-duration", utf8 "0"] = .ok given ∧
      Fitting .builtIn given disagreeing file ∧
      load .builtIn disagreeing directories (settingsOf given) = .ok s ∧ ∀ k : Setting, k.datum s = k.datum agreed := by
  intro directories
  let given : Flags.Parsed := { given := [(utf8 "min-duration", .int 0)] }
  have hgiven : Flags.parse (Command.run.flags ++ [helpFlag]) [utf8 "--min-duration", utf8 "0"] = .ok given := by
    decide +kernel
  -- The file is read in one evaluation, together with all that is to be known of it.
  have heval : (((findFile .builtIn disagreeing directories).elim (some []) Library.builtIn.table?).any fun file =>
      decide ((∀ key ∈ leaves file, key ∈ fields.map Field.key) ∧
        (file.at? programsField).any Value.isEmptyList = true ∧
        ∀ k ∈ Setting.all, k.read? (k.chosen .builtIn given disagreeing file) = some (k.datum agreed))) = true := by
    decide +kernel
  obtain ⟨file, hfile, hall⟩ := (Option.any_eq_true _ _).mp heval
  obtain ⟨hleaves, hprograms, hvalues⟩ := of_decide_eq_true hall
  have hempty : file.at? programsField = some (.list []) := by
    obtain ⟨v, hv, hlist⟩ := (Option.any_eq_true _ _).mp hprograms
    rw [hv, Value.eq_of_isEmptyList hlist]
  have hfitting : Fitting .builtIn given disagreeing file :=
    { plain := by
        intro key hkey
        obtain ⟨f, hf, rfl⟩ := List.mem_map.mp (hleaves key hkey)
        exact .ofField hf
      unset := by decide +kernel
      programs := by
        rw [hempty]
        exact ⟨fun t => by simp, _, rfl⟩
      typed := fun k _ => by rw [hvalues k k.mem_all]; rfl }
  obtain ⟨s, hload, hs⟩ :=
    load_by_precedence documented_builtIn (Flags.understood_parse hgiven) (finds_iff.mpr rfl) hfile hfitting
  refine ⟨given, file, s, hgiven, hfitting, hload, fun k => ?_⟩
  exact Option.some.inj ((hs k).symm.trans (hvalues k k.mem_all))

/-- A value in `.env` with a zero octet does not count: no environment can hold it. -/
theorem load_passes_over_zero_octet :
    (DotEnv.read (utf8 "FIBBENCH_BENCH_WORKDIR=\"a\x00b\"\nFIBBENCH_NATS_URL=u\n")).bind
        (·.lookup (utf8 "FIBBENCH_BENCH_WORKDIR")) = some (utf8 "a\x00b") ∧
      (load .builtIn { folder := [(utf8 ".env", utf8 "FIBBENCH_BENCH_WORKDIR=\"a\x00b\"\nFIBBENCH_NATS_URL=u\n")] } [[]]
        []).toOption.map (fun s => (s.bus.url, s.bench.workDir)) = some (utf8 "u", utf8 ".") := by
  decide +kernel

end Settings

end Stopwatch
