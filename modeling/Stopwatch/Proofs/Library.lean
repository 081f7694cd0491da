import Stopwatch.Proofs.SettingFields
import Stopwatch.Settings.Library

/-!
What the library has to keep to for settings to have their values by precedence, in words that its users rely on: variables
that are set stay as they are, a key has the value of its flag, else of its variable, else of the file, else the default,
and fields are converted each on its own. The built-in library keeps to it.
-/

namespace Stopwatch

/-! ### Variables of a file -/

namespace DotEnv

theorem lookup_filter_ne {name other : Bytes} (h : name ≠ other) (vars : Variables) :
    (vars.filter fun w => w.1 != other).lookup name = vars.lookup name := by
  induction vars with
  | nil => rfl
  | cons v vars ih =>
    by_cases hv : v.1 = other
    · have hname : (name == v.1) = false := beq_eq_false_iff_ne.mpr (hv ▸ h)
      rw [List.filter_cons_of_neg (by simp [hv]), ih, List.lookup_cons, hname]
    · rw [List.filter_cons_of_pos (by simpa using hv), List.lookup_cons, List.lookup_cons, ih]

theorem lookup_eq_none_of_filter_ne (name : Bytes) (keep : Bytes × Bytes → Bool) (vars : Variables) :
    ((vars.filter fun w => w.1 != name).filter keep).lookup name = none := by
  rw [List.lookup_eq_none_iff]
  intro w hw
  have hne : w.1 ≠ name := by simpa using (List.mem_filter.mp (List.mem_filter.mp hw).1).2
  exact bne_iff_ne.mpr hne.symm

/-- Of several values the latest counts, and it alone decides whether the variable can be held. -/
theorem lookup_filter_latestOnly {name : Bytes} (keep : Bytes × Bytes → Bool) (vars : Variables) :
    ((latestOnly vars).filter keep).lookup name = (vars.lookup name).filter fun value => keep (name, value) := by
  induction vars with
  | nil => rfl
  | cons v vars ih =>
    obtain ⟨other, value⟩ := v
    have hcons : latestOnly ((other, value) :: vars) =
        (other, value) :: (latestOnly vars).filter fun w => w.1 != other := rfl
    rw [hcons]
    by_cases hother : name = other
    · subst hother
      rw [List.lookup_cons_self]
      by_cases hkeep : keep (name, value) = true
      · rw [List.filter_cons_of_pos hkeep, List.lookup_cons_self]
        simp [Option.filter, hkeep]
      · rw [List.filter_cons_of_neg hkeep, lookup_eq_none_of_filter_ne]
        simp [Option.filter, hkeep]
    · have hne : (name == other) = false := beq_eq_false_iff_ne.mpr hother
      have hrest : (((other, value) :: (latestOnly vars).filter fun w => w.1 != other).filter keep).lookup name =
          (((latestOnly vars).filter fun w => w.1 != other).filter keep).lookup name := by
        by_cases hkeep : keep (other, value) = true
        · rw [List.filter_cons_of_pos hkeep, List.lookup_cons, hne]
        · rw [List.filter_cons_of_neg hkeep]
      rw [hrest, List.lookup_cons, hne, ← ih, ← lookup_filter_ne hother ((latestOnly vars).filter keep),
        List.filter_filter, List.filter_filter]
      simp only [Bool.and_comm]

theorem lookup_extend (environment vars : Variables) (name : Bytes) :
    (extend environment vars).lookup name =
      (environment.lookup name).or ((vars.lookup name).filter fun value => isHoldable (name, value)) := by
  rw [extend, List.lookup_append, lookup_filter_latestOnly]

end DotEnv

namespace Settings

/-! ### What a library has to keep to -/

/-- Sources that set single values: the flags are for settings, the file and the defaults set fields and keys that have
nothing to do with any, every setting has a default, and no variable stands for a whole section. The programs have neither
a variable nor a default. -/
structure Sources.Regular (s : Sources) : Prop where
  flags : ∀ e ∈ s.flags, ∃ k : Setting, e.1 = k.field.key
  file : ∀ key ∈ leaves s.file, Plain key
  defaults : ∀ key ∈ leaves s.defaults, ∃ k : Setting, key = k.field.key
  complete : ∀ k : Setting, ∃ v, (s.defaults.sectionOf k.field.group).get? k.field.part = some v ∧
    v ≠ .null ∧ ∀ t, v ≠ .table t
  sections : ∀ f ∈ fields, s.fromEnvironment? f.group = none
  programs : s.fromEnvironment? programsField.key = none
  noPrograms : s.defaults.find? [programsField.group, programsField.part] = none

/-- The table that sets the programs alone. -/
def programsOnly : Option Value → Table
  | none => []
  | some v => [(utf8 "bench", .table [(utf8 "programs", v)])]

/-- What users of a library rely on. -/
structure Library.Documented (lib : Library) : Prop where
  /-- A variable that is set stays as it is. Others have their value from the file, if an environment can hold it. -/
  lookup_extend : ∀ (environment vars : DotEnv.Variables) (name : Bytes),
    (lib.extend environment vars).lookup name =
      (environment.lookup name).or ((vars.lookup name).filter fun value => DotEnv.isHoldable (name, value))
  /-- A flag comes before a variable that is not empty, that before the file, and the file before the default. -/
  entry_setting : ∀ s : Sources, s.Regular → ∀ k : Setting,
    entry ((lib.gather s).sectionOf k.field.group) k.field.name =
      (s.flags.lookup k.field.key).or (((s.fromEnvironment? k.field.key).map Value.text).or
        ((s.file.at? k.field).or ((s.defaults.sectionOf k.field.group).get? k.field.part)))
  /-- The programs, which have neither flag nor default, come from the file. -/
  entry_programs : ∀ s : Sources, s.Regular → (∀ t, s.file.at? programsField ≠ some (.table t)) →
    entry ((lib.gather s).sectionOf (utf8 "bench")) "programs" = s.file.at? programsField
  /-- Where every field has a value of its type, and the programs fit when they are alone, all of it is converted. -/
  decode_eq : ∀ (t : Table) (s alone : Stopwatch.Settings),
    (∀ k : Setting, (t.sectionOf k.field.group).Holds k (k.datum s)) →
    lib.decode (programsOnly (entry (t.sectionOf (utf8 "bench")) "programs")) = .ok alone →
    alone.bench.programs = s.bench.programs → lib.decode t = .ok s

/-! ### All sources as one table -/

namespace Sources.Regular

variable {s : Sources}

theorem plain_defaults (h : s.Regular) : ∀ key ∈ leaves s.defaults, Plain key := by
  intro key hkey
  obtain ⟨k, rfl⟩ := h.defaults key hkey
  exact .ofField k.field_mem_fields

theorem plain_keys (h : s.Regular) : ∀ key ∈ s.keys, Plain key := plain_of_mem_keys h.flags h.file h.plain_defaults

theorem find?_defaults {f : Field} {v : Value} (hget : (s.defaults.sectionOf f.group).get? f.part = some v) :
    s.defaults.find? [f.group, f.part] = some v := by
  rw [Table.find?, Table.get?_of_sectionOf hget]
  · exact hget
  · exact List.cons_ne_nil _ _

theorem entry_setting (h : s.Regular) (k : Setting) :
    entry (s.table.sectionOf k.field.group) k.field.name =
      (s.flags.lookup k.field.key).or (((s.fromEnvironment? k.field.key).map Value.text).or
        ((s.file.at? k.field).or ((s.defaults.sectionOf k.field.group).get? k.field.part))) := by
  have hf := k.field_mem_fields
  obtain ⟨v, hget, hnull, hv⟩ := h.complete k
  have hpresent : present (some v) = some v := by cases v <;> first | rfl | exact absurd rfl hnull
  rw [entry_field h.plain_keys hf, if_pos (mem_keys_of_default h.plain_keys h.plain_defaults hf hv hget),
    get?_field h.file hf (h.sections _ hf), find?_defaults hget, hpresent, hget]

theorem entry_programs (h : s.Regular) (hlist : ∀ t, s.file.at? programsField ≠ some (.table t)) :
    entry (s.table.sectionOf (utf8 "bench")) "programs" = s.file.at? programsField := by
  have hf : programsField ∈ fields := List.mem_append_right _ (List.mem_singleton.mpr rfl)
  have hapart : ∀ k ∈ Setting.all, programsField.key ≠ k.field.key := by decide +kernel
  have hflags : s.flags.lookup programsField.key = none := by
    rw [List.lookup_eq_none_iff]
    intro e he
    obtain ⟨k, hk⟩ := h.flags e he
    rw [hk]
    exact bne_iff_ne.mpr (hapart k k.mem_all)
  have hget : s.get? programsField.key = s.file.at? programsField := by
    rw [get?_field h.file hf (h.sections _ hf), hflags, h.programs, h.noPrograms, present_none, Option.map_none,
      Option.none_or, Option.none_or, Option.or_none]
  have hentry := entry_field h.plain_keys hf
  rw [hget] at hentry
  refine hentry.trans ?_
  cases hat : s.file.at? programsField with
  | none => exact ite_self _
  | some v => exact if_pos (mem_keys_of_file h.plain_keys h.file hf (fun t ht => hlist t (by rw [hat, ht])) hat)

end Sources.Regular

/-! ### Conversion -/

/-- A section in which a field finds an entry is there as a table. -/
theorem entry_section {t : Table} {group : String} {name : String} {v : Value}
    (h : entry (t.sectionOf (utf8 group)) name = some v) : entry t group = some (.table (t.sectionOf (utf8 group))) := by
  have hnil : entry [] name = none := rfl
  rw [Table.sectionOf] at h ⊢
  split at h
  · next inner hget => rw [entry, hget]; rfl
  · rw [hnil] at h
    cases h

theorem decode_eq {t : Table} {s : Stopwatch.Settings}
    (hsettings : ∀ k : Setting, (t.sectionOf k.field.group).Holds k (k.datum s))
    (hprograms : decodeList decodeProgram (below (utf8 "bench") "programs")
      (entry (t.sectionOf (utf8 "bench")) "programs") = (s.bench.programs, [])) : decode t = .ok s := by
  obtain ⟨url, hurl, -⟩ := hsettings .url
  obtain ⟨least, hleast, -⟩ := hsettings .minDurationMs
  have hbus : decodeBus (entry t "nats") = (s.bus, []) := by
    rw [entry_section hurl]
    exact decodeBus_eq fun k hk => hk ▸ hsettings k
  have hbench : decodeBench (entry t "bench") = (s.bench, []) := by
    rw [entry_section hleast]
    exact decodeBench_eq (fun k hk => hk ▸ hsettings k) hprograms
  simp only [decode, hbus, hbench]
  rfl

theorem entry_singleton (name : String) (v : Value) : entry [(utf8 name, v)] name = some v := by
  have hkeys : (Table.keys [(utf8 name, v)]).Nodup := List.nodup_singleton (utf8 name)
  rw [entry, Table.get?_of_mem hkeys (List.mem_singleton.mpr rfl), Option.some_or]

/-- Where all of a table is converted, its programs are. -/
theorem decodeList_of_decode {t inner : Table} {s : Stopwatch.Settings} (h : decode t = .ok s)
    (hbench : entry t "bench" = some (.table inner)) :
    decodeList decodeProgram (below (utf8 "bench") "programs") (entry inner "programs") = (s.bench.programs, []) := by
  rw [decode, hbench] at h
  dsimp only at h
  split at h
  · next hempty =>
    cases h
    rw [List.isEmpty_iff, List.append_eq_nil_iff] at hempty
    refine Prod.ext rfl ?_
    exact (List.append_eq_nil_iff.mp hempty.2).2
  · cases h

/-- Programs that fit when they are alone fit everywhere. -/
theorem decodeList_of_programsOnly {v : Option Value} {alone : Stopwatch.Settings}
    (h : decode (programsOnly v) = .ok alone) :
    decodeList decodeProgram (below (utf8 "bench") "programs") v = (alone.bench.programs, []) := by
  cases v with
  | none =>
    cases h
    rfl
  | some v =>
    have hbench : entry (programsOnly (some v)) "bench" = some (.table [(utf8 "programs", v)]) := by
      rw [programsOnly, entry_singleton]
    have hprograms := decodeList_of_decode h hbench
    rwa [entry_singleton] at hprograms

/-- The built-in library keeps to all of it. -/
theorem documented_builtIn : Library.builtIn.Documented where
  lookup_extend := DotEnv.lookup_extend
  entry_setting := fun _ h k => h.entry_setting k
  entry_programs := fun _ h hlist => h.entry_programs hlist
  decode_eq := by
    intro t s alone hsettings halone hprograms
    refine decode_eq hsettings ?_
    rw [decodeList_of_programsOnly halone, hprograms]

end Settings

end Stopwatch
