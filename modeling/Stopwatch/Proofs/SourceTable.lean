import Mathlib.Data.List.Nodup
import Mathlib.Tactic.Common
import Stopwatch.Settings.Decode
import Stopwatch.Settings.Sources

/-!
The table that the sources of settings make together. Its keys are those that some source lists, and as long as no two of
them get in each other's way, the value at each is the one that the sources give this key.
-/

namespace Stopwatch.Settings

/-! ### Tables -/

namespace Table

theorem get?_put (t : Table) (key key' : Bytes) (v : Value) :
    (t.put key v).get? key' = if key' = key then some v else t.get? key' := by
  rw [get?, put, List.reverse_append, List.reverse_singleton, List.singleton_append, List.find?_cons]
  by_cases h : key' = key
  · simp [h]
  · have hne : (key == key') = false := by simpa using Ne.symm h
    have hfind : ((t.filter fun e => e.1 != key).reverse.find? fun e => e.1 == key') =
        t.reverse.find? fun e => e.1 == key' := by
      rw [← List.filter_reverse, List.find?_filter]
      congr 1
      funext e
      by_cases he : e.1 = key'
      · simp [he, h]
      · simp [he]
    simp only [hne, hfind, if_neg h, get?]

theorem mem_of_get? {t : Table} {key : Bytes} {v : Value} (h : t.get? key = some v) : (key, v) ∈ t := by
  obtain ⟨e, he, rfl⟩ := Option.map_eq_some_iff.mp h
  have hkey : e.1 = key := by simpa using List.find?_some he
  rw [← hkey]
  exact List.mem_reverse.mp (List.mem_of_find?_eq_some he)

theorem get?_eq_none_iff {t : Table} {key : Bytes} : t.get? key = none ↔ ∀ e ∈ t, e.1 ≠ key := by
  simp [get?, List.find?_eq_none]

/-- The keys of a table, in order. -/
def keys (t : Table) : List Bytes := t.map Prod.fst

theorem keys_put (t : Table) (key : Bytes) (v : Value) :
    (t.put key v).keys = t.keys.filter (· != key) ++ [key] := by
  simp only [keys, put, List.map_append, List.map_cons, List.map_nil, List.append_cancel_right_eq]
  rw [List.filter_map]
  rfl

theorem nodup_keys_put {t : Table} (h : t.keys.Nodup) (key : Bytes) (v : Value) : (t.put key v).keys.Nodup := by
  rw [keys_put, List.nodup_append]
  refine ⟨h.filter _, List.nodup_singleton key, ?_⟩
  intro a ha b hb
  rw [List.mem_singleton] at hb
  rw [List.mem_filter, bne_iff_ne] at ha
  rw [hb]
  exact ha.2

theorem mem_keys_put {t : Table} {key key' : Bytes} {v : Value} (h : key' ∈ (t.put key v).keys) :
    key' = key ∨ key' ∈ t.keys := by
  rw [keys_put, List.mem_append, List.mem_singleton, List.mem_filter] at h
  rcases h with h | h
  · exact .inr h.1
  · exact .inl h

/-- With every key once, an entry is the value of its key. -/
theorem get?_of_mem {t : Table} (h : t.keys.Nodup) {key : Bytes} {v : Value} (hmem : (key, v) ∈ t) :
    t.get? key = some v := by
  cases hget : t.get? key with
  | none => exact absurd rfl (get?_eq_none_iff.mp hget _ hmem)
  | some w =>
    have hw := mem_of_get? hget
    have hsame : ((key, w) : Bytes × Value) = (key, v) := List.inj_on_of_nodup_map h hw hmem rfl
    rw [(Prod.mk.inj hsame).2]

/-- The table that stands at a key, empty if none does. -/
def sectionOf (t : Table) (key : Bytes) : Table :=
  match t.get? key with
  | some (.table inner) => inner
  | _ => []

theorem putAt_cons_cons (t : Table) (a b : Bytes) (rest : Path) (v : Value) :
    t.putAt (a :: b :: rest) v = t.put a (.table ((t.sectionOf a).putAt (b :: rest) v)) := by
  cases h : t.get? a with
  | none => simp [putAt, sectionOf, h]
  | some w => cases w <;> simp [putAt, sectionOf, h]

theorem sectionOf_put_of_ne {t : Table} {a key : Bytes} (h : key ≠ a) (v : Value) :
    (t.put a v).sectionOf key = t.sectionOf key := by
  rw [sectionOf, get?_put, if_neg h, sectionOf]

theorem sectionOf_put_table (t : Table) (key : Bytes) (inner : Table) :
    (t.put key (.table inner)).sectionOf key = inner := by
  rw [sectionOf, get?_put, if_pos rfl]

/-- A path that leads to or past another key than this one of a section. -/
inductive Apart (group name : Bytes) : Path → Prop
  | outside {a : Bytes} {rest : Path} (h : group ≠ a) : Apart group name (a :: rest)
  | inside {b : Bytes} {rest : Path} (h : name ≠ b) : Apart group name (group :: b :: rest)

/-- A value that is put elsewhere leaves a key of a section as it is. -/
theorem get?_sectionOf_putAt_of_apart {t : Table} {group name : Bytes} {path : Path} (h : Apart group name path)
    (v : Value) : ((t.putAt path v).sectionOf group).get? name = (t.sectionOf group).get? name := by
  cases h with
  | @outside a rest h =>
    cases rest with
    | nil => rw [putAt, sectionOf_put_of_ne h]
    | cons b rest => rw [putAt_cons_cons, sectionOf_put_of_ne h]
  | @inside b rest h =>
    rw [putAt_cons_cons, sectionOf_put_table]
    cases rest with
    | nil => rw [putAt, get?_put, if_neg h]
    | cons c rest => rw [putAt_cons_cons, get?_put, if_neg h]

theorem get?_sectionOf_putAt_self (t : Table) (group name : Bytes) (v : Value) :
    ((t.putAt [group, name] v).sectionOf group).get? name = some v := by
  rw [putAt_cons_cons, sectionOf_put_table, putAt, get?_put, if_pos rfl]

/-- A section whose keys all come from certain paths, each key once. -/
structure SectionFrom (t : Table) (group : Bytes) (paths : List Path) : Prop where
  nodup : (t.sectionOf group).keys.Nodup
  mem : ∀ name ∈ (t.sectionOf group).keys, ∃ rest, group :: name :: rest ∈ paths

theorem SectionFrom.putAt {t : Table} {group : Bytes} {paths : List Path} (h : SectionFrom t group paths) {path : Path}
    (hpath : path ≠ [group]) (v : Value) : SectionFrom (t.putAt path v) group (path :: paths) := by
  have hsame : SectionFrom t group (path :: paths) := by
    refine ⟨h.nodup, fun name hname => ?_⟩
    obtain ⟨rest, hrest⟩ := h.mem name hname
    exact ⟨rest, List.mem_cons_of_mem _ hrest⟩
  rcases path with _ | ⟨a, _ | ⟨b, rest⟩⟩
  · exact hsame
  · have hne : group ≠ a := fun heq => hpath (by rw [heq])
    rw [Table.putAt]
    exact ⟨by rw [sectionOf_put_of_ne hne]; exact hsame.nodup, by rw [sectionOf_put_of_ne hne]; exact hsame.mem⟩
  · rw [putAt_cons_cons]
    by_cases hne : group = a
    · subst hne
      have hput : ∃ w, (t.sectionOf group).putAt (b :: rest) v = (t.sectionOf group).put b w := by
        cases rest with
        | nil => exact ⟨v, rfl⟩
        | cons c rest => exact ⟨_, putAt_cons_cons _ _ _ _ _⟩
      obtain ⟨w, hw⟩ := hput
      refine ⟨?_, ?_⟩
      · rw [sectionOf_put_table, hw]
        exact nodup_keys_put h.nodup b w
      · rw [sectionOf_put_table, hw]
        intro name hname
        rcases mem_keys_put hname with rfl | hname
        · exact ⟨rest, List.mem_cons_self⟩
        · exact hsame.mem name hname
    · exact ⟨by rw [sectionOf_put_of_ne hne]; exact hsame.nodup, by rw [sectionOf_put_of_ne hne]; exact hsame.mem⟩

end Table

/-- A field finds its entry by the one key that is its name without regard to case. -/
theorem entry_eq {t : Table} (hnodup : t.keys.Nodup) {name : String} {low : Bytes}
    (hlow : low.folded = (utf8 name).folded)
    (hsole : ∀ key ∈ t.keys, key.folded = (utf8 name).folded → key = low) : entry t name = t.get? low := by
  cases hexact : t.get? (utf8 name) with
  | some v =>
    have hname : utf8 name = low :=
      hsole _ (List.mem_map.mpr ⟨_, Table.mem_of_get? hexact, rfl⟩) rfl
    rw [entry, hexact, ← hname, hexact]
    rfl
  | none =>
    rw [entry, hexact, Option.none_or]
    cases hfind : List.find? (fun e => Bytes.folded e.1 == Bytes.folded (utf8 name)) t with
    | none =>
      rw [List.find?_eq_none] at hfind
      refine (Table.get?_eq_none_iff.mpr fun e he heq => hfind e he ?_).symm
      simp [heq, hlow]
    | some e =>
      have hmem := List.mem_of_find?_eq_some hfind
      have hkey : e.1 = low := hsole e.1 (List.mem_map.mpr ⟨e, hmem, rfl⟩) (by simpa using List.find?_some hfind)
      rw [← hkey, Table.get?_of_mem hnodup hmem]
      rfl

/-! ### The keys that a table sets -/

mutual

/-- The keys of all values that are no tables, for a value at a key. -/
def leavesOf (key : Bytes) : Value → List Bytes
  | .table entries => leavesBelow (key ++ [Ascii.dot]) entries
  | _ => [key]

def leavesBelow (before : Bytes) : List (Bytes × Value) → List Bytes
  | [] => []
  | (part, v) :: rest => leavesOf (before ++ part) v ++ leavesBelow before rest

end

/-- The keys that a table sets: the paths to all values in it that are no tables. -/
def leaves (t : Table) : List Bytes := leavesBelow [] t

theorem leavesOf_of_ne_table {v : Value} (h : ∀ entries, v ≠ .table entries) (key : Bytes) : leavesOf key v = [key] := by
  cases v with
  | table entries => exact absurd rfl (h entries)
  | _ => rw [leavesOf]; exact h

theorem keysOf_of_ne_table {v : Value} (h : ∀ entries, v ≠ .table entries) (key : Bytes) (listed : List Bytes) :
    keysOf key listed v = if listed.contains key then listed else listed ++ [key] := by
  cases v with
  | table entries => exact absurd rfl (h entries)
  | _ => rw [keysOf]; exact h

mutual

/-- Only keys that a value sets are added to the list. -/
theorem mem_leavesOf {key : Bytes} {listed : List Bytes} {k : Bytes} :
    ∀ {v : Value}, k ∈ keysOf key listed v → k ∈ listed ∨ k ∈ leavesOf key v
  | .table entries, h => by
    rw [keysOf] at h
    split at h
    · exact .inl h
    · rw [leavesOf]
      exact mem_leavesBelow h
  | .null, h | .bool _, h | .int _, h | .natural _, h | .float _, h | .text _, h | .moment _, h | .list _, h
  | .mixed _, h => by
    rw [keysOf_of_ne_table (by simp)] at h
    rw [leavesOf_of_ne_table (by simp), ← List.mem_append]
    split at h
    · exact List.mem_append_left _ h
    · exact h

theorem mem_leavesBelow {before : Bytes} {listed : List Bytes} {k : Bytes} :
    ∀ {entries : List (Bytes × Value)}, k ∈ keysBelow before listed entries → k ∈ listed ∨ k ∈ leavesBelow before entries
  | [], h => .inl h
  | (part, v) :: rest, h => by
    rw [keysBelow] at h
    rw [leavesBelow, List.mem_append]
    rcases mem_leavesBelow h with h | h
    · exact (mem_leavesOf h).imp_right .inl
    · exact .inr (.inr h)

end

mutual

/-- What is listed stays listed. -/
theorem mem_keysOf_of_mem {key : Bytes} {listed : List Bytes} {k : Bytes} (hk : k ∈ listed) :
    ∀ v : Value, k ∈ keysOf key listed v
  | .table entries => by
    rw [keysOf]
    split
    · exact hk
    · exact mem_keysBelow_of_mem hk entries
  | .null | .bool _ | .int _ | .natural _ | .float _ | .text _ | .moment _ | .list _ | .mixed _ => by
    rw [keysOf_of_ne_table (by simp)]
    split
    · exact hk
    · exact List.mem_append_left _ hk

theorem mem_keysBelow_of_mem {before : Bytes} {listed : List Bytes} {k : Bytes} (hk : k ∈ listed) :
    ∀ entries : List (Bytes × Value), k ∈ keysBelow before listed entries
  | [] => hk
  | (part, v) :: rest => by
    rw [keysBelow]
    exact mem_keysBelow_of_mem (mem_keysOf_of_mem hk v) rest

end

/-- The key of a value right below a key is listed, if the value is no table. -/
theorem mem_keysBelow_of_leaf {before part : Bytes} {v : Value} (hv : ∀ inner, v ≠ .table inner) {listed : List Bytes}
    {entries : List (Bytes × Value)} (hmem : (part, v) ∈ entries) :
    before ++ part ∈ keysBelow before listed entries := by
  induction entries generalizing listed with
  | nil => exact absurd hmem List.not_mem_nil
  | cons e rest ih =>
    rw [keysBelow]
    rcases List.mem_cons.mp hmem with heq | hmem
    · rw [← heq]
      refine mem_keysBelow_of_mem ?_ rest
      rw [keysOf_of_ne_table hv]
      split
      · next hlisted => exact List.contains_iff_mem.mp hlisted
      · exact List.mem_append_right _ (List.mem_singleton.mpr rfl)
    · exact ih hmem

theorem mem_leavesBelow_of_mem {before part : Bytes} {v : Value} (hv : ∀ inner, v ≠ .table inner)
    {entries : List (Bytes × Value)} (hmem : (part, v) ∈ entries) : before ++ part ∈ leavesBelow before entries := by
  induction entries with
  | nil => exact absurd hmem List.not_mem_nil
  | cons e rest ih =>
    rw [leavesBelow, List.mem_append]
    rcases List.mem_cons.mp hmem with heq | hmem
    · left
      rw [← heq, leavesOf_of_ne_table hv]
      exact List.mem_singleton.mpr rfl
    · exact .inr (ih hmem)

/-- So is the key of such a value in a section, if neither the section itself is listed nor anything in its place. -/
theorem mem_keysBelow_of_section {group part : Bytes} {inner : Table} {v : Value} (hv : ∀ t, v ≠ .table t)
    (hpart : (part, v) ∈ inner) {entries : List (Bytes × Value)}
    (hmem : (group, .table inner) ∈ entries) (hleaves : group ∉ leavesBelow [] entries) {listed : List Bytes}
    (hlisted : group ∉ listed) : group ++ Ascii.dot :: part ∈ keysBelow [] listed entries := by
  induction entries generalizing listed with
  | nil => exact absurd hmem List.not_mem_nil
  | cons e rest ih =>
    obtain ⟨group', v'⟩ := e
    rw [leavesBelow, List.mem_append, not_or] at hleaves
    rw [keysBelow]
    rcases List.mem_cons.mp hmem with heq | hmem
    · cases heq
      refine mem_keysBelow_of_mem ?_ rest
      have hcontains : listed.contains group = false := by simpa using hlisted
      rw [List.nil_append, keysOf, hcontains]
      have hkey : group ++ [Ascii.dot] ++ part ∈ keysBelow (group ++ [Ascii.dot]) listed inner :=
        mem_keysBelow_of_leaf hv hpart
      simpa using hkey
    · exact ih hmem hleaves.2 fun h => (mem_leavesOf h).elim hlisted hleaves.1

/-! ### All sources together -/

namespace Sources

variable (s : Sources)

/-- The table with one more key, if the sources give it a value. -/
def add (t : Table) (key : Bytes) : Table := (s.get? key).elim t (t.putAt (Path.ofKey key))

theorem table_eq : s.table = s.keys.foldl s.add [] := by
  rw [table]
  congr 1
  funext t key
  rw [add]
  cases s.get? key <;> rfl

/-- The run lemma for one key of a section: after keys that are this one or apart from it, it has its value. -/
theorem get?_sectionOf_adds {group name key : Bytes} (hkey : Path.ofKey key = [group, name]) {keys : List Bytes}
    (hkeys : ∀ k ∈ keys, k = key ∨ Table.Apart group name (Path.ofKey k)) (t : Table) :
    ((keys.foldl s.add t).sectionOf group).get? name =
      if key ∈ keys then (s.get? key).or ((t.sectionOf group).get? name) else (t.sectionOf group).get? name := by
  induction keys generalizing t with
  | nil => rfl
  | cons k keys ih =>
    rw [List.forall_mem_cons] at hkeys
    rw [List.foldl_cons, ih hkeys.2]
    have hstep : ((s.add t k).sectionOf group).get? name =
        if k = key then (s.get? key).or ((t.sectionOf group).get? name) else (t.sectionOf group).get? name := by
      rw [add]
      split
      · next heq =>
        rw [heq]
        cases s.get? key with
        | none => rfl
        | some v =>
          rw [Option.elim_some, hkey, Table.get?_sectionOf_putAt_self]
          rfl
      · next hne =>
        cases s.get? k with
        | none => rfl
        | some v => exact Table.get?_sectionOf_putAt_of_apart (hkeys.1.resolve_left hne) v
    rw [hstep]
    by_cases heq : k = key
    · cases s.get? key <;> simp [heq]
    · simp [heq, Ne.symm heq]

/-- The run lemma for the keys of a section: they are those of the listed paths. -/
theorem sectionFrom_adds {group : Bytes} {keys : List Bytes} (hkeys : ∀ k ∈ keys, Path.ofKey k ≠ [group]) {t : Table}
    {paths : List Path} (h : Table.SectionFrom t group paths) :
    Table.SectionFrom (keys.foldl s.add t) group ((keys.map Path.ofKey).reverse ++ paths) := by
  induction keys generalizing t paths with
  | nil => exact h
  | cons k keys ih =>
    rw [List.forall_mem_cons] at hkeys
    have hstep : Table.SectionFrom (s.add t k) group (Path.ofKey k :: paths) := by
      rw [add]
      cases s.get? k with
      | none => exact ⟨h.nodup, fun name hname => (h.mem name hname).imp fun _ hrest => List.mem_cons_of_mem _ hrest⟩
      | some v => exact h.putAt hkeys.1 v
    have hrest := ih hkeys.2 hstep
    simpa using hrest

/-- The keys that the sources list. -/
theorem mem_keys {k : Bytes} (h : k ∈ s.keys) : k ∈ s.flags.map Prod.fst ∨ k ∈ leaves s.file ∨ k ∈ leaves s.defaults := by
  rw [keys] at h
  rcases mem_leavesBelow h with h | h
  · rcases mem_leavesBelow h with h | h
    · exact .inl (List.mem_eraseDups.mp h)
    · exact .inr (.inl h)
  · exact .inr (.inr h)

end Sources

end Stopwatch.Settings
