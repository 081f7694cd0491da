import Mathlib.Tactic.Common
import Stopwatch.Flags.Basic
import Stopwatch.Proofs.SourceTable

/-!
The fields of the settings. Each has its key, and as long as the file sets only the keys of fields, and others that have
nothing to do with them, a field finds the value that the sources give its key, whatever they give other keys.
-/

namespace Stopwatch.Settings

/-! ### Fields and keys -/

/-- The settings that are single values. -/
inductive Setting where
  | url
  | requestSubject
  | resultSubject
  | queueGroup
  | maxReconnects
  | reconnectWaitSec
  | minDurationMs
  | timeLimitMs
  | memoryLimitKb
  | maxConcurrentJobs
  | workDir
  deriving DecidableEq

/-- The value of a setting. -/
inductive Datum where
  | text (s : Bytes)
  | whole (n : Int64)
  deriving DecidableEq

/-- A field by the name of its section and its own. -/
structure Field where
  group : Bytes
  name : String
  deriving DecidableEq

namespace Field

/-- The name of a field as keys spell it. -/
def part (f : Field) : Bytes := (utf8 f.name).map Ascii.lower

def key (f : Field) : Bytes := f.group ++ Ascii.dot :: f.part

/-- The environment variable of a field. -/
def variableName (f : Field) : Bytes :=
  utf8 "FIBBENCH_" ++ f.group.map Ascii.upper ++ Ascii.underscore :: f.part.map Ascii.upper

end Field

namespace Setting

def all : List Setting :=
  [url, requestSubject, resultSubject, queueGroup, maxReconnects, reconnectWaitSec, minDurationMs, timeLimitMs,
    memoryLimitKb, maxConcurrentJobs, workDir]

theorem mem_all (k : Setting) : k ∈ all := by cases k <;> decide

def field : Setting → Field
  | url => ⟨utf8 "nats", "url"⟩
  | requestSubject => ⟨utf8 "nats", "requestSubject"⟩
  | resultSubject => ⟨utf8 "nats", "resultSubject"⟩
  | queueGroup => ⟨utf8 "nats", "queueGroup"⟩
  | maxReconnects => ⟨utf8 "nats", "maxReconnects"⟩
  | reconnectWaitSec => ⟨utf8 "nats", "reconnectWaitSec"⟩
  | minDurationMs => ⟨utf8 "bench", "minDurationMs"⟩
  | timeLimitMs => ⟨utf8 "bench", "timeLimitMs"⟩
  | memoryLimitKb => ⟨utf8 "bench", "memoryLimitKb"⟩
  | maxConcurrentJobs => ⟨utf8 "bench", "maxConcurrentJobs"⟩
  | workDir => ⟨utf8 "bench", "workDir"⟩

/-- The value of a setting in given settings. -/
def datum (s : Stopwatch.Settings) : Setting → Datum
  | url => .text s.bus.url
  | requestSubject => .text s.bus.requestSubject
  | resultSubject => .text s.bus.resultSubject
  | queueGroup => .text s.bus.queueGroup
  | maxReconnects => .whole s.bus.maxReconnects
  | reconnectWaitSec => .whole s.bus.reconnectWaitSec
  | minDurationMs => .whole s.bench.minDurationMs
  | timeLimitMs => .whole s.bench.timeLimitMs
  | memoryLimitKb => .whole s.bench.memoryLimitKb
  | maxConcurrentJobs => .whole s.bench.maxConcurrentJobs
  | workDir => .text s.bench.workDir

end Setting

def programsField : Field := ⟨utf8 "bench", "programs"⟩

/-- All fields. -/
def fields : List Field := Setting.all.map Setting.field ++ [programsField]

theorem Setting.field_mem_fields (k : Setting) : k.field ∈ fields :=
  List.mem_append_left _ (List.mem_map_of_mem k.mem_all)

namespace Field

theorem path_of_mem : ∀ f ∈ fields, Path.ofKey f.key = [f.group, f.part] := by decide +kernel

theorem path_group_of_mem : ∀ f ∈ fields, Path.ofKey f.group = [f.group] := by decide +kernel

theorem variableName_of_mem : ∀ f ∈ fields, Settings.variableName f.key = f.variableName := by decide +kernel

theorem isHoldable_of_mem : ∀ f ∈ fields, f.variableName ≠ [] ∧ Ascii.nul ∉ f.variableName := by decide +kernel

theorem group_of_mem : ∀ f ∈ fields, f.group = utf8 "nats" ∨ f.group = utf8 "bench" := by decide +kernel

theorem folded_part_of_mem : ∀ f ∈ fields, f.part.folded = f.part := by decide +kernel

theorem folded_name_of_mem : ∀ f ∈ fields, (utf8 f.name).folded = f.part := by decide +kernel

/-- No two fields have names that differ only in case. -/
theorem eq_of_part : ∀ f ∈ fields, ∀ g ∈ fields, f.part = g.part → f = g := by decide +kernel

end Field

/-! ### Keys that a file may set -/

/-- A path that leads to no field, and past none. -/
inductive Foreign : Path → Prop
  | outside {a : Bytes} {rest : Path} (hbus : a ≠ utf8 "nats") (hbench : a ≠ utf8 "bench") : Foreign (a :: rest)
  | inside {group b : Bytes} {rest : Path} (h : ∀ f ∈ fields, f.group = group → b.folded ≠ (utf8 f.name).folded) :
    Foreign (group :: b :: rest)

/-- The key of a field, or one that has nothing to do with any. -/
def Plain (key : Bytes) : Prop := (∃ f ∈ fields, key = f.key) ∨ Foreign (Path.ofKey key)

namespace Plain

variable {key : Bytes}

theorem ofField {f : Field} (hf : f ∈ fields) : Plain f.key := .inl ⟨f, hf, rfl⟩

theorem eq_or_apart (h : Plain key) {f : Field} (hf : f ∈ fields) :
    key = f.key ∨ Table.Apart f.group f.part (Path.ofKey key) := by
  rcases h with ⟨g, hg, rfl⟩ | h
  · by_cases heq : g = f
    · exact .inl (by rw [heq])
    · right
      rw [Field.path_of_mem g hg]
      by_cases hgroup : f.group = g.group
      · rw [← hgroup]
        exact .inside fun hpart => heq (Field.eq_of_part f hf g hg hpart).symm
      · exact .outside hgroup
  · right
    generalize Path.ofKey key = path at h
    cases h with
    | outside hbus hbench =>
      refine .outside fun heq => ?_
      rcases Field.group_of_mem f hf with hgroup | hgroup
      · exact hbus (heq.symm.trans hgroup)
      · exact hbench (heq.symm.trans hgroup)
    | @inside group b rest h =>
      by_cases hgroup : f.group = group
      · subst hgroup
        refine .inside fun hpart => h f hf rfl ?_
        rw [← hpart, Field.folded_part_of_mem f hf, Field.folded_name_of_mem f hf]
      · exact .outside hgroup

/-- No such key stands for a whole section. -/
theorem path_ne_group (h : Plain key) {f : Field} (hf : f ∈ fields) : Path.ofKey key ≠ [f.group] := by
  rintro hpath
  rcases h with ⟨g, hg, rfl⟩ | h
  · rw [Field.path_of_mem g hg] at hpath
    simp at hpath
  · rw [hpath] at h
    cases h with
    | outside hbus hbench => exact (Field.group_of_mem f hf).elim hbus hbench

/-- Of all keys of a section, only that of a field can be its name without regard to case. -/
theorem part_eq (h : Plain key) {f : Field} (hf : f ∈ fields) {part : Bytes} {rest : Path}
    (hpath : Path.ofKey key = f.group :: part :: rest) (hfold : part.folded = (utf8 f.name).folded) : part = f.part := by
  rcases h with ⟨g, hg, rfl⟩ | h
  · rw [Field.path_of_mem g hg] at hpath
    obtain ⟨-, hpart, -⟩ : g.group = f.group ∧ g.part = part ∧ [] = rest := by simpa using hpath
    rw [← hpart] at hfold ⊢
    rwa [Field.folded_part_of_mem g hg, Field.folded_name_of_mem f hf] at hfold
  · rw [hpath] at h
    cases h with
    | outside hbus hbench => exact ((Field.group_of_mem f hf).elim hbus hbench).elim
    | inside h => exact absurd hfold (h f hf rfl)

end Plain

/-! ### The value of one key -/

@[simp]
theorem present_none : present none = none := rfl

theorem eq_of_present {v : Option Value} {w : Value} (h : present v = some w) : v = some w := by
  cases v with
  | none => cases h
  | some v => cases v <;> first | exact h | cases h

@[simp]
theorem present_present (v : Option Value) : present (present v) = present v := by
  cases v with
  | none => rfl
  | some v => cases v <;> rfl

/-- The value of a field in a table: under its whole key, or in its section. -/
def Table.at? (t : Table) (f : Field) : Option Value :=
  (present (t.get? f.key)).or (present ((t.sectionOf f.group).get? f.part))

/-- A section with an entry is there as a table. -/
theorem Table.get?_of_sectionOf {t : Table} {group part : Bytes} {v : Value}
    (h : (t.sectionOf group).get? part = some v) : t.get? group = some (.table (t.sectionOf group)) := by
  rw [sectionOf] at h ⊢
  split at h
  · next inner hget => simp only [hget]
  · cases h

theorem Table.findJoined?_part (n : Nat) (t : Table) (part : Bytes) :
    findJoined? (n + 1) t [part] = present (t.get? part) := by
  cases h : t.get? part with
  | none => simp [findJoined?, Path.key, Bytes.join, h]
  | some v => simp [findJoined?, Path.key, Bytes.join, h]

theorem Table.findJoined?_field (n : Nat) (t : Table) (f : Field) :
    findJoined? (n + 2) t [f.group, f.part] = t.at? f := by
  have hkey : Path.key [f.group, f.part] = f.key := by simp [Path.key, Bytes.join, Field.key, List.intercalate]
  have hgroup : Path.key [f.group] = f.group := by simp [Path.key, Bytes.join]
  have hnil : Table.get? [] f.part = none := rfl
  cases hsection : t.get? f.group with
  | none => cases h : t.get? f.key <;> simp [findJoined?, List.range_succ, hkey, hgroup, hsection, h, at?, sectionOf, hnil]
  | some w =>
    cases w with
    | table inner =>
      cases h : t.get? f.key <;>
        simp [findJoined?, List.range_succ, hkey, hgroup, hsection, h, at?, sectionOf, ← findJoined?_part n inner]
    | _ =>
      cases h : t.get? f.key <;>
        simp [findJoined?, List.range_succ, hkey, hgroup, hsection, h, at?, sectionOf, hnil]

/-- A file that sets plain keys only has nothing but a table in the place of a section. -/
theorem Table.hides_eq_false {t : Table} (hplain : ∀ key ∈ leaves t, Plain key) {f : Field} (hf : f ∈ fields) :
    t.hides [f.group, f.part] = false := by
  have habove : Path.above [f.group, f.part] = [[f.group]] := rfl
  have hfind : t.find? [f.group] = t.get? f.group := rfl
  rw [hides, habove, hides.go, hfind]
  cases hget : t.get? f.group with
  | none => rfl
  | some v =>
    have hleaf : (∀ inner, v ≠ .table inner) → False := fun hv =>
      (hplain _ (mem_leavesBelow_of_mem hv (mem_of_get? hget))).path_ne_group hf (Field.path_group_of_mem f hf)
    cases v with
    | table inner => rfl
    | _ => exact (hleaf (by simp)).elim

namespace Sources

variable {s : Sources}

/-- The value of a field, source by source. -/
theorem get?_field (hplain : ∀ key ∈ leaves s.file, Plain key) {f : Field} (hf : f ∈ fields)
    (habove : s.fromEnvironment? f.group = none) :
    s.get? f.key = (s.flags.lookup f.key).or (((s.fromEnvironment? f.key).map Value.text).or
      ((s.file.at? f).or (present (s.defaults.find? [f.group, f.part])))) := by
  have hpaths : Path.above [f.group, f.part] = [[f.group]] := rfl
  have hgroup : Path.key [f.group] = f.group := by simp [Path.key, Bytes.join]
  have hjoined : s.file.findJoined? ([f.group, f.part].length + 1) [f.group, f.part] = s.file.at? f :=
    Table.findJoined?_field 1 s.file f
  rw [get?, Field.path_of_mem f hf, hpaths, hjoined, Table.hides_eq_false hplain hf]
  cases s.flags.lookup f.key with
  | some v => rfl
  | none =>
    cases s.fromEnvironment? f.key with
    | some text => rfl
    | none =>
      cases s.file.at? f <;> simp [hgroup, habove]

/-- Every key that the sources list is plain, if all that they set are plain keys. -/
theorem plain_of_mem_keys (hflags : ∀ e ∈ s.flags, ∃ k : Setting, e.1 = k.field.key)
    (hfile : ∀ key ∈ leaves s.file, Plain key) (hdefaults : ∀ key ∈ leaves s.defaults, Plain key) :
    ∀ key ∈ s.keys, Plain key := by
  intro key hkey
  rcases s.mem_keys hkey with h | h | h
  · obtain ⟨e, he, rfl⟩ := List.mem_map.mp h
    obtain ⟨k, hk⟩ := hflags e he
    rw [hk]
    exact .ofField k.field_mem_fields
  · exact hfile key h
  · exact hdefaults key h

theorem group_not_mem_keys (hkeys : ∀ key ∈ s.keys, Plain key) {f : Field} (hf : f ∈ fields) : f.group ∉ s.keys :=
  fun h => (hkeys _ h).path_ne_group hf (Field.path_group_of_mem f hf)

/-- A field with a default is listed. -/
theorem mem_keys_of_default (hkeys : ∀ key ∈ s.keys, Plain key) (hdefaults : ∀ key ∈ leaves s.defaults, Plain key)
    {f : Field} (hf : f ∈ fields) {v : Value} (hv : ∀ t, v ≠ .table t)
    (hget : (s.defaults.sectionOf f.group).get? f.part = some v) : f.key ∈ s.keys := by
  have hleaves : f.group ∉ leaves s.defaults := fun h =>
    (hdefaults _ h).path_ne_group hf (Field.path_group_of_mem f hf)
  refine mem_keysBelow_of_section hv (Table.mem_of_get? hget) (Table.mem_of_get? (Table.get?_of_sectionOf hget)) hleaves
    fun h => group_not_mem_keys hkeys hf (mem_keysBelow_of_mem h s.defaults)

/-- So is a field that the file sets. -/
theorem mem_keys_of_file (hkeys : ∀ key ∈ s.keys, Plain key) (hfile : ∀ key ∈ leaves s.file, Plain key) {f : Field}
    (hf : f ∈ fields) {v : Value} (hv : ∀ t, v ≠ .table t) (hat : s.file.at? f = some v) : f.key ∈ s.keys := by
  refine mem_keysBelow_of_mem ?_ s.defaults
  rcases Option.or_eq_some_iff.mp hat with hwhole | ⟨-, hsection⟩
  · have hkey : [] ++ f.key ∈ keysBelow [] (s.flags.map Prod.fst).eraseDups s.file :=
      mem_keysBelow_of_leaf hv (Table.mem_of_get? (eq_of_present hwhole))
    exact hkey
  · have hget := eq_of_present hsection
    have hleaves : f.group ∉ leaves s.file := fun h =>
      (hfile _ h).path_ne_group hf (Field.path_group_of_mem f hf)
    have hlisted : f.group ∉ (s.flags.map Prod.fst).eraseDups := fun h =>
      group_not_mem_keys hkeys hf (mem_keysBelow_of_mem (mem_keysBelow_of_mem h s.file) s.defaults)
    exact mem_keysBelow_of_section hv (Table.mem_of_get? hget) (Table.mem_of_get? (Table.get?_of_sectionOf hget)) hleaves
      hlisted

/-- The entry that a field finds in its section is the value that the sources give its key, if the key is listed. -/
theorem entry_field (hkeys : ∀ key ∈ s.keys, Plain key) {f : Field} (hf : f ∈ fields) :
    entry (s.table.sectionOf f.group) f.name = if f.key ∈ s.keys then s.get? f.key else none := by
  have hstart : Table.SectionFrom [] f.group [] := ⟨List.nodup_nil, fun _ h => absurd h List.not_mem_nil⟩
  have hfrom := s.sectionFrom_adds (fun key hkey => (hkeys key hkey).path_ne_group hf) hstart
  rw [← s.table_eq, List.append_nil] at hfrom
  have hsole : ∀ part ∈ (s.table.sectionOf f.group).keys, part.folded = (utf8 f.name).folded → part = f.part := by
    intro part hpart hfold
    obtain ⟨rest, hrest⟩ := hfrom.mem part hpart
    obtain ⟨key, hkey, hpath⟩ := List.mem_map.mp (List.mem_reverse.mp hrest)
    exact (hkeys key hkey).part_eq hf hpath hfold
  have hfold : f.part.folded = (utf8 f.name).folded := by
    rw [Field.folded_part_of_mem f hf, Field.folded_name_of_mem f hf]
  have hget := s.get?_sectionOf_adds (Field.path_of_mem f hf) (fun key hkey => (hkeys key hkey).eq_or_apart hf) []
  rw [entry_eq hfrom.nodup hfold hsole, s.table_eq, hget]
  have hnone : (Table.sectionOf [] f.group).get? f.part = none := rfl
  rw [hnone, Option.or_none]

end Sources

/-! ### Values and their types -/

/-- The whole number that a value stands for: a number as it is, or a text that spells one. -/
def Value.whole? : Value → Option Int64
  | .int n => some n
  | .text (b :: s) => (Integer.readAnyBase (b :: s)).toOption
  | _ => none

def Value.text? : Value → Option Bytes
  | .text s => some s
  | _ => none

theorem decodeInt_of_whole? {v : Value} {n : Int64} (h : v.whole? = some n) (field : Bytes) :
    decodeInt field (some v) = (n, []) := by
  cases v with
  | int m =>
    cases h
    rfl
  | text s =>
    cases s with
    | nil => cases h
    | cons b s =>
      rw [Value.whole?] at h
      cases hread : Integer.readAnyBase (b :: s) with
      | error e => rw [hread] at h; cases h
      | ok m =>
        rw [hread] at h
        cases h
        simp [decodeInt, hread]
  | _ => cases h

theorem decodeText_of_text? {v : Value} {s : Bytes} (h : v.text? = some s) (field : Bytes) :
    decodeText field (some v) = (s, []) := by
  cases v with
  | text t =>
    cases h
    rfl
  | _ => cases h

namespace Setting

/-- What a setting takes, in the words of the flags. -/
def kind : Setting → Flags.Kind
  | url | requestSubject | resultSubject | queueGroup | workDir => .text
  | _ => .int

/-- A value as that of a setting, none if it is not of its type. -/
def read? (k : Setting) (v : Value) : Option Datum :=
  if k.kind = .text then v.text?.map Datum.text else v.whole?.map Datum.whole

theorem read?_eq {k : Setting} {v : Value} (h : (k.read? v).isSome) :
    k.read? v = some (if k.kind = .text then .text (v.text?.getD []) else .whole (v.whole?.getD 0)) := by
  rw [read?] at h ⊢
  split at h
  · next hk =>
    cases htext : v.text? with
    | none => rw [htext] at h; cases h
    | some s => simp [hk]
  · next hk =>
    cases hwhole : v.whole? with
    | none => rw [hwhole] at h; cases h
    | some n => simp [hk]

/-- Values of the right types make settings. -/
theorem exists_settings {value : Setting → Value} (h : ∀ k : Setting, (k.read? (value k)).isSome)
    (programs : Option (List Program)) :
    ∃ s : Stopwatch.Settings, s.bench.programs = programs ∧ ∀ k : Setting, k.read? (value k) = some (k.datum s) := by
  let text (k : Setting) : Bytes := (value k).text?.getD []
  let whole (k : Setting) : Int64 := (value k).whole?.getD 0
  refine ⟨{ bus := ⟨text .url, text .requestSubject, text .resultSubject, text .queueGroup, whole .maxReconnects,
              whole .reconnectWaitSec⟩
            bench := ⟨whole .minDurationMs, whole .timeLimitMs, whole .memoryLimitKb, whole .maxConcurrentJobs,
              text .workDir, programs⟩ }, rfl, fun k => ?_⟩
  rw [read?_eq (h k)]
  cases k <;> rfl

end Setting

/-- A table holds a value of a setting. -/
def Table.Holds (t : Table) (k : Setting) (d : Datum) : Prop := ∃ v, entry t k.field.name = some v ∧ k.read? v = some d

theorem Table.Holds.decodeText {t : Table} {k : Setting} {s : Bytes} (h : t.Holds k (.text s)) (field : Bytes) :
    decodeText field (entry t k.field.name) = (s, []) := by
  obtain ⟨v, hv, hread⟩ := h
  rw [hv]
  refine decodeText_of_text? ?_ field
  rw [Setting.read?] at hread
  split at hread
  · simpa using hread
  · simp at hread

theorem Table.Holds.decodeInt {t : Table} {k : Setting} {n : Int64} (h : t.Holds k (.whole n)) (field : Bytes) :
    decodeInt field (entry t k.field.name) = (n, []) := by
  obtain ⟨v, hv, hread⟩ := h
  rw [hv]
  refine decodeInt_of_whole? ?_ field
  rw [Setting.read?] at hread
  split at hread
  · simp at hread
  · simpa using hread

theorem decodeBus_eq {t : Table} {s : Stopwatch.Settings}
    (h : ∀ k : Setting, k.field.group = utf8 "nats" → t.Holds k (k.datum s)) : decodeBus (some (.table t)) = (s.bus, []) := by
  have hurl := (h .url rfl).decodeText
  have hrequest := (h .requestSubject rfl).decodeText
  have hresult := (h .resultSubject rfl).decodeText
  have hqueue := (h .queueGroup rfl).decodeText
  have hreconnects := (h .maxReconnects rfl).decodeInt
  have hwait := (h .reconnectWaitSec rfl).decodeInt
  simp only [Setting.field] at hurl hrequest hresult hqueue hreconnects hwait
  simp only [decodeBus, fieldsOf, hurl, hrequest, hresult, hqueue, hreconnects, hwait, List.append_nil]

theorem decodeBench_eq {t : Table} {s : Stopwatch.Settings}
    (h : ∀ k : Setting, k.field.group = utf8 "bench" → t.Holds k (k.datum s))
    (hprograms : decodeList decodeProgram (below (utf8 "bench") "programs") (entry t "programs") = (s.bench.programs, [])) :
    decodeBench (some (.table t)) = (s.bench, []) := by
  have hleast := (h .minDurationMs rfl).decodeInt
  have htime := (h .timeLimitMs rfl).decodeInt
  have hmemory := (h .memoryLimitKb rfl).decodeInt
  have hjobs := (h .maxConcurrentJobs rfl).decodeInt
  have hdir := (h .workDir rfl).decodeText
  simp only [Setting.field] at hleast htime hmemory hjobs hdir
  simp only [decodeBench, fieldsOf, hleast, htime, hmemory, hjobs, hdir, hprograms, List.append_nil]

end Stopwatch.Settings
