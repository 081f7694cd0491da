import Mathlib.Data.List.Forall2
import Stopwatch.Settings.Basic

/-!
Requests for programs that are chosen by name. A name stands for the last configured program that carries it. The names
are gone through in order, each one adds its program, and the first name that no program carries ends the choice with
what was found before it.
-/

namespace Stopwatch

namespace Selection

variable {programs : List Program}

/-! ### The program of a name -/

/-- Some program carries the name. -/
def Configured (programs : List Program) (name : Bytes) : Prop := ∃ p ∈ programs, p.name = name

/-- The last program that carries a name: none after it does. -/
def IsLastNamed (programs : List Program) (name : Bytes) (p : Program) : Prop :=
  ∃ before after, programs = before ++ p :: after ∧ p.name = name ∧ ∀ q ∈ after, q.name ≠ name

instance (programs : List Program) (name : Bytes) : Decidable (Configured programs name) :=
  inferInstanceAs (Decidable (∃ p ∈ programs, _))

theorem IsLastNamed.mem {name : Bytes} {p : Program} : IsLastNamed programs name p → p ∈ programs := by
  rintro ⟨before, after, rfl, -, -⟩
  simp

theorem IsLastNamed.configured {name : Bytes} {p : Program} (h : IsLastNamed programs name p) :
    Configured programs name := by
  have hmem := h.mem
  obtain ⟨-, -, -, hname, -⟩ := h
  exact ⟨p, hmem, hname⟩

theorem byName?_eq_none_iff {name : Bytes} : byName? programs name = none ↔ ¬ Configured programs name := by
  simp [byName?, Configured]

theorem byName?_eq_some_iff {name : Bytes} {p : Program} :
    byName? programs name = some p ↔ IsLastNamed programs name p := by
  rw [byName?, List.find?_eq_some_iff_append]
  constructor
  · rintro ⟨hname, after, before, hreverse, hafter⟩
    refine ⟨before.reverse, after.reverse, by simpa using congrArg List.reverse hreverse, by simpa using hname, ?_⟩
    intro q hq
    simpa using hafter q (List.mem_reverse.mp hq)
  · rintro ⟨before, after, rfl, hname, hafter⟩
    refine ⟨by simpa using hname, after.reverse, before.reverse, by simp, ?_⟩
    intro q hq
    simpa using hafter q (List.mem_reverse.mp hq)

/-! ### Going through the names -/

/-- How a choice goes: the names, the programs found for them, and the name that ended it. -/
inductive Choice (programs : List Program) : List Bytes → List Program → Option Bytes → Prop
  | done : Choice programs [] [] none
  | found {name : Bytes} {p : Program} {names : List Bytes} {rest : List Program} {unknown : Option Bytes}
      (last : IsLastNamed programs name p) (next : Choice programs names rest unknown) :
      Choice programs (name :: names) (p :: rest) unknown
  | unknown {name : Bytes} (names : List Bytes) (none : ¬ Configured programs name) :
      Choice programs (name :: names) [] (some name)

theorem exists_choice (programs : List Program) : ∀ names, ∃ found unknown, Choice programs names found unknown
  | [] => ⟨[], none, .done⟩
  | name :: names => by
    cases hname : byName? programs name with
    | none => exact ⟨[], some name, .unknown names (byName?_eq_none_iff.mp hname)⟩
    | some p =>
      obtain ⟨found, unknown, hrest⟩ := exists_choice programs names
      exact ⟨p :: found, unknown, .found (byName?_eq_some_iff.mp hname) hrest⟩

variable {names : List Bytes} {found : List Program} {unknown : Option Bytes}

theorem Choice.select_eq (h : Choice programs names found unknown) (chosen : List Program) :
    select programs names chosen = (chosen.reverse ++ found, unknown) := by
  induction h generalizing chosen with
  | done => simp [select]
  | found last _ ih =>
    rw [select, byName?_eq_some_iff.mpr last]
    simp [ih]
  | unknown names none =>
    rw [select, byName?_eq_none_iff.mpr none]
    simp

/-- A choice ends behind the last name, or at the first one that no program carries. -/
theorem Choice.split (h : Choice programs names found unknown) :
    (unknown = none ∧ List.Forall₂ (IsLastNamed programs) names found) ∨
      ∃ before name after, unknown = some name ∧ names = before ++ name :: after ∧ ¬ Configured programs name ∧
        List.Forall₂ (IsLastNamed programs) before found := by
  induction h with
  | done => exact .inl ⟨rfl, .nil⟩
  | @found name p _ _ _ last _ ih =>
    rcases ih with ⟨hnone, hrest⟩ | ⟨before, other, after, hsome, rfl, hother, hbefore⟩
    · exact .inl ⟨hnone, .cons last hrest⟩
    · exact .inr ⟨name :: before, other, after, hsome, rfl, hother, .cons last hbefore⟩
  | @unknown name names none => exact .inr ⟨[], name, names, rfl, rfl, none, .nil⟩

theorem configured_of_forall₂ (h : List.Forall₂ (IsLastNamed programs) names found) :
    ∀ name ∈ names, Configured programs name := by
  induction h with
  | nil => exact List.forall_mem_nil _
  | cons last _ ih => exact List.forall_mem_cons.mpr ⟨last.configured, ih⟩

theorem exists_choice_of_configured (h : ∀ name ∈ names, Configured programs name) :
    ∃ found, Choice programs names found none ∧ List.Forall₂ (IsLastNamed programs) names found := by
  obtain ⟨found, unknown, hchoice⟩ := exists_choice programs names
  rcases hchoice.split with ⟨rfl, hall⟩ | ⟨before, name, after, -, rfl, hname, -⟩
  · exact ⟨found, hchoice, hall⟩
  · exact absurd (h name (by simp)) hname

/-- Names behind names that are all configured. -/
theorem Choice.append {more : List Bytes} {others : List Program} (h : Choice programs names found none)
    (hmore : Choice programs more others unknown) : Choice programs (names ++ more) (found ++ others) unknown := by
  generalize hnone : (none : Option Bytes) = ended at h
  induction h with
  | done => exact hmore
  | found last _ ih => exact .found last (ih hnone)
  | unknown names none => cases hnone

/-- Without repeated names, every program is the one of its name. -/
theorem choice_names (hnodup : (programs.map Program.name).Nodup) :
    Choice programs (programs.map Program.name) programs none := by
  have hrest : ∀ after before, programs = before ++ after → Choice programs (after.map Program.name) after none := by
    intro after
    induction after with
    | nil => exact fun _ _ => .done
    | cons p after ih =>
      intro before hsplit
      refine .found ⟨before, after, hsplit, rfl, fun q hq heq => ?_⟩ (ih (before ++ [p]) (by simpa using hsplit))
      rw [hsplit, List.map_append, List.map_cons] at hnodup
      have hnot := (List.nodup_cons.mp (List.nodup_append.mp hnodup).2.1).1
      exact hnot (heq ▸ List.mem_map_of_mem hq)
  exact hrest programs [] rfl

end Selection

namespace BenchSettings

open Selection

variable {b : BenchSettings} {moment : Nat} {names : List Bytes} {found : List Program} {unknown : Option Bytes}

/-- A request by names is the request for everything, with the programs that were found. -/
theorem request_of_choice (h : Choice b.programList names found unknown) (hne : names ≠ []) :
    b.request moment names = ({ (b.request moment []).1 with programs := someIfAny found }, unknown) := by
  have hnames : names.isEmpty = false := by simpa using hne
  simp [request, hnames, h.select_eq]

theorem programList_request (h : Choice b.programList names found unknown) (hne : names ≠ []) :
    (b.request moment names).1.programList = found := by
  rw [request_of_choice h hne, Request.programList, getD_someIfAny]

theorem unknown_request (h : Choice b.programList names found unknown) (hne : names ≠ []) :
    (b.request moment names).2 = unknown := by
  rw [request_of_choice h hne]

theorem someIfAny_programList (h : b.programList ≠ []) : someIfAny b.programList = b.programs := by
  cases hprograms : b.programs with
  | none => exact absurd (by rw [programList, hprograms]; rfl) h
  | some programs =>
    have hlist : b.programList = programs := by rw [programList, hprograms]; rfl
    rw [hlist] at h ⊢
    simp [someIfAny, h]

/-- A request by names succeeds exactly if all names are configured, and its programs are then those of the names, in
order, each the last configured one of its name. Otherwise the first name that is not configured is the one that the
error quotes, and the programs are those of the names before it; all else of the request does not depend on the names.
So names can be given in two parts, and without repeated names the list of all names is as good as none. -/
theorem request_selects_last (b : BenchSettings) (moment : Nat) :
    (∀ names, names ≠ [] →
      ((b.request moment names).2 = none ↔ ∀ name ∈ names, Configured b.programList name)) ∧
    (∀ names, names ≠ [] → (b.request moment names).2 = none →
      List.Forall₂ (IsLastNamed b.programList) names (b.request moment names).1.programList) ∧
    (∀ names before name after, names = before ++ name :: after → (∀ n ∈ before, Configured b.programList n) →
      ¬ Configured b.programList name →
      (b.request moment names).2.map unknownMessage = some (utf8 "unknown program " ++ quote name) ∧
      List.Forall₂ (IsLastNamed b.programList) before (b.request moment names).1.programList) ∧
    (∀ names, (b.request moment names).1 =
      { (b.request moment []).1 with programs := (b.request moment names).1.programs }) ∧
    (∀ xs ys, xs ≠ [] → ys ≠ [] → (b.request moment xs).2 = none →
      (b.request moment (xs ++ ys)).2 = (b.request moment ys).2 ∧
      (b.request moment (xs ++ ys)).1.programList =
        (b.request moment xs).1.programList ++ (b.request moment ys).1.programList) ∧
    ((b.programList.map Program.name).Nodup →
      b.request moment (b.programList.map Program.name) = b.request moment []) := by
  refine ⟨?_, ?_, ?_, ?_, ?_, ?_⟩
  · intro names hne
    obtain ⟨found, unknown, h⟩ := exists_choice b.programList names
    rw [unknown_request h hne]
    rcases h.split with ⟨hnone, hall⟩ | ⟨before, name, after, hsome, rfl, hname, -⟩
    · exact ⟨fun _ => configured_of_forall₂ hall, fun _ => hnone⟩
    · refine ⟨fun hnone => ?_, fun hall => absurd (hall name (by simp)) hname⟩
      rw [hsome] at hnone
      cases hnone
  · intro names hne hnone
    obtain ⟨found, unknown, h⟩ := exists_choice b.programList names
    rw [unknown_request h hne] at hnone
    rw [programList_request h hne]
    rcases h.split with ⟨-, hall⟩ | ⟨before, name, after, hsome, -⟩
    · exact hall
    · rw [hsome] at hnone
      cases hnone
  · rintro names before name after rfl hbefore hname
    have hne : before ++ name :: after ≠ [] := by simp
    obtain ⟨found, h, hall⟩ := exists_choice_of_configured hbefore
    have hchoice := h.append (.unknown after hname)
    rw [List.append_nil] at hchoice
    rw [unknown_request hchoice hne, programList_request hchoice hne]
    exact ⟨rfl, hall⟩
  · intro names
    rcases names with _ | ⟨name, names⟩
    · rfl
    · obtain ⟨found, unknown, h⟩ := exists_choice b.programList (name :: names)
      rw [request_of_choice h (List.cons_ne_nil _ _)]
  · intro xs ys hxs hys hnone
    obtain ⟨found, unknown, h⟩ := exists_choice b.programList xs
    obtain ⟨others, other, hmore⟩ := exists_choice b.programList ys
    rw [unknown_request h hxs] at hnone
    subst hnone
    have happend := h.append hmore
    have hne : xs ++ ys ≠ [] := by simp [hxs]
    rw [unknown_request happend hne, programList_request happend hne, unknown_request hmore hys,
      programList_request hmore hys, programList_request h hxs]
    exact ⟨rfl, rfl⟩
  · intro hnodup
    by_cases hnil : b.programList = []
    · rw [hnil]
      rfl
    · rw [request_of_choice (choice_names hnodup) (by simpa using hnil), someIfAny_programList hnil]
      rfl

/-- Two programs of one name: the later one is meant, also where the name is repeated, and a name that nobody carries is
quoted with the programs before it. -/
theorem request_selects_last_repeated :
    let first : Program := { name := utf8 "fib", executor := utf8 "direct" }
    let other : Program := { name := utf8 "go" }
    let last : Program := { name := utf8 "fib", executor := utf8 "inprocess" }
    let b : BenchSettings := { programs := some [first, other, last] }
    List.Forall₂ (IsLastNamed b.programList) [utf8 "fib", utf8 "go", utf8 "fib"]
        (b.request 7 [utf8 "fib", utf8 "go", utf8 "fib"]).1.programList ∧
      (b.request 7 [utf8 "fib", utf8 "go", utf8 "fib"]).1.programList = [last, other, last] ∧
      (b.request 7 [utf8 "go", utf8 "c\n", utf8 "fib"]).2.map unknownMessage = some (utf8 "unknown program \"c\\n\"") ∧
      (b.request 7 ([utf8 "fib"] ++ [utf8 "go"])).1.programList = [last] ++ [other] ∧
      { b with programs := some [first, other] }.request 7 [utf8 "fib", utf8 "go"] =
        { b with programs := some [first, other] }.request 7 [] := by
  intro first other last b
  obtain ⟨hsucceeds, hlast, hunknown, -, happend, -⟩ := request_selects_last b 7
  refine ⟨?_, by decide +kernel, ?_, ?_, ?_⟩
  · refine hlast _ (List.cons_ne_nil _ _) ((hsucceeds _ (List.cons_ne_nil _ _)).mpr ?_)
    decide +kernel
  · have hquoted := (hunknown _ [utf8 "go"] (utf8 "c\n") [utf8 "fib"] rfl (by decide +kernel) (by decide +kernel)).1
    exact hquoted.trans (by decide +kernel)
  · refine (happend [utf8 "fib"] [utf8 "go"] (List.cons_ne_nil _ _) (List.cons_ne_nil _ _) ?_).2.trans ?_
    · decide +kernel
    · decide +kernel
  · exact (request_selects_last { b with programs := some [first, other] } 7).2.2.2.2.2 (by decide +kernel)

end BenchSettings

end Stopwatch
