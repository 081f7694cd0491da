import Stopwatch.Proofs.Choosing
import Stopwatch.Settings.Load

/-!
The requests that loaded settings describe. Settings always have programs, and so has every request made from them: all
of the configured ones, or one of them for each name that was given.
-/

namespace Stopwatch

/-! ### Settings and their requests -/

theorem Settings.programList_withPrograms_ne_nil (s : Settings) : s.withPrograms.bench.programList ≠ [] := by
  rw [Settings.withPrograms]
  split
  · exact List.cons_ne_nil _ _
  · next h => simpa using h

/-- Loaded settings have programs. -/
theorem Settings.programList_ne_nil_of_load {lib : Library} {around : Surroundings} {directories : List Bytes}
    {flags : List (Bytes × Value)} {s : Stopwatch.Settings} (h : load lib around directories flags = .ok s) :
    s.bench.programList ≠ [] := by
  rw [load] at h
  split at h
  · cases h
  · split at h
    · cases h
    · cases h
      exact programList_withPrograms_ne_nil _

/-- The settings that no source changes. -/
def Settings.unchanged : Settings :=
  { bus :=
      { url := utf8 "nats://localhost:4222"
        requestSubject := utf8 "bench.requested"
        resultSubject := utf8 "bench.result"
        queueGroup := utf8 "fib-bench-group"
        maxReconnects := 5
        reconnectWaitSec := 2 }
    bench :=
      { minDurationMs := 1000
        timeLimitMs := 10000
        maxConcurrentJobs := 1
        workDir := utf8 "."
        programs := some defaultPrograms } }

theorem Settings.load_unchanged : load .builtIn {} [[]] [] = .ok unchanged := by
  have hload : (load .builtIn {} [[]] []).toOption = some unchanged := by decide +kernel
  cases h : load .builtIn {} [[]] [] with
  | error e => rw [h] at hload; cases hload
  | ok s => rw [h] at hload; cases hload; rfl

namespace BenchSettings

/-- The programs of a request are configured ones: all of them, or the last one of each name. -/
theorem request_programs {b : BenchSettings} {moment : Nat} {names : List Bytes} {req : Request}
    (h : b.request moment names = (req, none)) :
    (names = [] ∧ req.programList = b.programList) ∨
      names ≠ [] ∧ List.Forall₂ (Selection.IsLastNamed b.programList) names req.programList := by
  by_cases hne : names = []
  · subst hne
    cases h
    exact .inl ⟨rfl, rfl⟩
  · obtain ⟨found, unknown, hchoice⟩ := Selection.exists_choice b.programList names
    have hfound := @programList_request b moment _ _ _ hchoice hne
    have hunknown := @unknown_request b moment _ _ _ hchoice hne
    rw [h] at hfound hunknown
    rcases hchoice.split with ⟨-, hall⟩ | ⟨before, name, after, hsome, -⟩
    · exact .inr ⟨hne, hfound ▸ hall⟩
    · rw [← hunknown] at hsome
      cases hsome

theorem programList_request_ne_nil {b : BenchSettings} {moment : Nat} {names : List Bytes} {req : Request}
    (configured : b.programList ≠ []) (h : b.request moment names = (req, none)) : req.programList ≠ [] := by
  rcases request_programs h with ⟨-, hall⟩ | ⟨hnames, hchosen⟩
  · rwa [hall]
  · intro hnil
    rw [hnil] at hchosen
    exact hnames (List.forall₂_nil_right_iff.mp hchosen)

theorem mem_programList_of_request {b : BenchSettings} {moment : Nat} {names : List Bytes} {req : Request}
    (h : b.request moment names = (req, none)) {p : Program} (hp : p ∈ req.programList) : p ∈ b.programList := by
  rcases request_programs h with ⟨-, hall⟩ | ⟨-, hchosen⟩
  · rwa [hall] at hp
  · obtain ⟨i, hi, rfl⟩ := List.getElem_of_mem hp
    exact (hchosen.get (by rw [hchosen.length_eq]; exact hi) hi).mem

end BenchSettings

end Stopwatch
