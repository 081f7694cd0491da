import Mathlib.Data.Nat.Find
import Mathlib.Order.Monotone.Basic
import Stopwatch.Bench.Measure

/-!
The course of a measurement. An executor in use gives an endless trace of outcomes and clock readings; the measuring
loop walks along it up to the first place that ends it. What the loop has gathered there is a fold over the outcomes
so far.
-/

namespace Stopwatch.Measure

/-! ### The trace of an executor -/

section Trace
variable {σ : Type} (ex : Executor σ) (req : RunRequest)

/-- The session after a number of attempts, whatever they brought. -/
def sessionAt (s : Session σ) : Nat → Session σ
  | 0 => s
  | n + 1 => (sessionAt s n).after req ((sessionAt s n).attempt ex req)

/-- The outcome of an attempt, counted from zero. -/
def outcomeAt (s : Session σ) (n : Nat) : Except Fault Sample := ((sessionAt ex req s n).attempt ex req).outcome

/-- The clock after an attempt, counted from zero. -/
def elapsedAt (s : Session σ) (n : Nat) : Nat := (sessionAt ex req s (n + 1)).elapsed

/-- The first attempt can be split off a trace. -/
theorem sessionAt_succ' (s : Session σ) : ∀ n,
    sessionAt ex req s (n + 1) = sessionAt ex req (sessionAt ex req s 1) n
  | 0 => rfl
  | n + 1 => by rw [sessionAt, sessionAt_succ' s n, ← sessionAt]

theorem outcomeAt_succ (s : Session σ) (n : Nat) :
    outcomeAt ex req s (n + 1) = outcomeAt ex req (sessionAt ex req s 1) n := by
  rw [outcomeAt, sessionAt_succ', ← outcomeAt]

theorem elapsedAt_succ (s : Session σ) (n : Nat) :
    elapsedAt ex req s (n + 1) = elapsedAt ex req (sessionAt ex req s 1) n := by
  rw [elapsedAt, sessionAt_succ', ← elapsedAt]

/-- The clock never goes back. -/
theorem elapsedAt_mono (s : Session σ) : Monotone (elapsedAt ex req s) :=
  monotone_nat_of_le_succ fun _ => Nat.le_add_right _ _

/-- Every attempt is a call with the same request. -/
theorem calls_sessionAt (s : Session σ) : ∀ n,
    (sessionAt ex req s n).calls = List.replicate n req ++ s.calls
  | 0 => rfl
  | n + 1 => by
    rw [sessionAt, Session.after, calls_sessionAt s n]; rfl

end Trace

/-- An executor that brings given outcomes at given moments of the clock. -/
def tape (outcome : Nat → Except Fault Sample) (clock : Nat → Nat) : Executor Nat :=
  { id := []
    execute := fun _ n _ =>
      { outcome := outcome n, state := n + 1, elapsed := clock n - if n = 0 then 0 else clock (n - 1) } }

/-- Outcomes may come in any sequence, and so may clock readings that do not go back: each such pair of sequences is the
trace of an executor. -/
theorem tape_trace (outcome : Nat → Except Fault Sample) {clock : Nat → Nat} (hclock : Monotone clock)
    (req : RunRequest) :
    outcomeAt (tape outcome clock) req { state := 0 } = outcome ∧
      elapsedAt (tape outcome clock) req { state := 0 } = clock := by
  have hsession : ∀ n, (sessionAt (tape outcome clock) req { state := 0 } n).state = n ∧
      (sessionAt (tape outcome clock) req { state := 0 } n).elapsed = if n = 0 then 0 else clock (n - 1) := by
    intro n
    induction n with
    | zero => exact ⟨rfl, rfl⟩
    | succ n ih =>
      rw [sessionAt]
      generalize sessionAt (tape outcome clock) req { state := 0 } n = s at ih
      obtain ⟨hstate, helapsed⟩ := ih
      refine ⟨congrArg (· + 1) hstate, ?_⟩
      have hback : (if n = 0 then 0 else clock (n - 1)) ≤ clock n := by
        split
        · exact Nat.zero_le _
        · exact hclock (Nat.sub_le n 1)
      change s.elapsed + (clock s.state - if s.state = 0 then 0 else clock (s.state - 1)) = _
      rw [helapsed, hstate, Nat.add_sub_cancel' hback]
      simp
  refine ⟨funext fun n => ?_, funext fun n => ?_⟩
  · rw [outcomeAt, Session.attempt, (hsession n).1]; rfl
  · rw [elapsedAt, (hsession (n + 1)).2]; simp

/-! ### Outcomes that let a measurement go on -/

/-- An outcome that counts as a sample: a success with the expected output. -/
def Accepted (expected : Bytes) : Except Fault Sample → Prop
  | .error _ => False
  | .ok sample => sample.status = .success ∧ outputMatches sample.stdout expected = true

instance (expected : Bytes) : (o : Except Fault Sample) → Decidable (Accepted expected o)
  | .error _ => inferInstanceAs (Decidable False)
  | .ok _ => inferInstanceAs (Decidable (_ ∧ _))

theorem judge_eq_none_iff {expected : Bytes} : ∀ {o : Except Fault Sample},
    judge expected o = none ↔ Accepted expected o
  | .error _ => by simp [judge, Accepted]
  | .ok sample => by
    by_cases hs : sample.status = .success
    · by_cases ho : outputMatches sample.stdout expected = true <;> simp [judge, Accepted, hs, ho]
    · simp [judge, Accepted, hs]

/-- What ends a measurement at an attempt: its outcome, or the clock. -/
def Ends {σ : Type} (ex : Executor σ) (req : RunRequest) (expected : Bytes) (least : Int) (s : Session σ)
    (n : Nat) : Prop :=
  ¬ Accepted expected (outcomeAt ex req s n) ∨ least ≤ (elapsedAt ex req s n : Int)

instance {σ : Type} (ex : Executor σ) (req : RunRequest) (expected : Bytes) (least : Int) (s : Session σ) (n : Nat) :
    Decidable (Ends ex req expected least s n) := inferInstanceAs (Decidable (_ ∨ _))

/-! ### What the loop gathers -/

/-- Progress after an accepted outcome. -/
def Progress.take (p : Progress) (o : Except Fault Sample) : Progress := (p.note o).addTime o

/-- Progress after the outcome that ends a measurement. -/
def Progress.close (expected : Bytes) (p : Progress) (o : Except Fault Sample) : Progress :=
  if Accepted expected o then p.take o else p.note o

/-- The outcomes of the first attempts. -/
def outcomesUpTo {σ : Type} (ex : Executor σ) (req : RunRequest) (s : Session σ) (n : Nat) :
    List (Except Fault Sample) :=
  (List.range n).map (outcomeAt ex req s)

theorem outcomesUpTo_succ' {σ : Type} (ex : Executor σ) (req : RunRequest) (s : Session σ) (n : Nat) :
    outcomesUpTo ex req s (n + 1) =
      outcomeAt ex req s 0 :: outcomesUpTo ex req (sessionAt ex req s 1) n := by
  rw [outcomesUpTo, List.range_succ_eq_map, List.map_cons, List.map_map, outcomesUpTo]
  congr 1
  exact List.map_congr_left fun i _ => outcomeAt_succ ex req s i

section Loop
variable {σ : Type} (ex : Executor σ) (req : RunRequest) (expected : Bytes) (least : Int)

/-- One turn of the loop that an outcome ends. -/
theorem repeatRuns_rejected {s : Session σ} (budget : Nat) (p : Progress)
    (h : ¬ Accepted expected (outcomeAt ex req s 0)) :
    repeatRuns ex req expected least (budget + 1) s p =
      ((judge expected (outcomeAt ex req s 0)).getD timeUp, p.note (outcomeAt ex req s 0), sessionAt ex req s 1) := by
  obtain ⟨ending, hj⟩ := Option.ne_none_iff_exists'.mp (mt judge_eq_none_iff.mp h)
  have hj' : judge expected (s.attempt ex req).outcome = some ending := hj
  rw [repeatRuns, hj, Option.getD_some]
  simp only [hj']
  rfl

/-- One turn of the loop that the outcome does not end: the clock decides. -/
theorem repeatRuns_accepted {s : Session σ} (budget : Nat) (p : Progress)
    (h : Accepted expected (outcomeAt ex req s 0)) :
    repeatRuns ex req expected least (budget + 1) s p =
      if least ≤ (elapsedAt ex req s 0 : Int) then (timeUp, p.take (outcomeAt ex req s 0), sessionAt ex req s 1)
      else repeatRuns ex req expected least budget (sessionAt ex req s 1) (p.take (outcomeAt ex req s 0)) := by
  have hj : judge expected (s.attempt ex req).outcome = none := judge_eq_none_iff.mpr h
  rw [repeatRuns]
  simp only [hj]
  rfl

/-- The loop stops at the first place that ends it, or where its bound does. -/
theorem repeatRuns_eq : ∀ (n budget : Nat) (s : Session σ) (p : Progress), n < budget →
    (∀ i < n, ¬ Ends ex req expected least s i) → (Ends ex req expected least s n ∨ n + 1 = budget) →
    repeatRuns ex req expected least budget s p =
      ((judge expected (outcomeAt ex req s n)).getD timeUp,
        ((outcomesUpTo ex req s n).foldl Progress.take p).close expected (outcomeAt ex req s n),
        sessionAt ex req s (n + 1))
  | 0, budget + 1, s, p, _, _, hend => by
    by_cases ha : Accepted expected (outcomeAt ex req s 0)
    · rw [repeatRuns_accepted ex req expected least budget p ha, judge_eq_none_iff.mpr ha, Progress.close, if_pos ha]
      by_cases ht : least ≤ (elapsedAt ex req s 0 : Int)
      · rw [if_pos ht]; rfl
      · -- neither the outcome nor the clock ended it, so the bound did
        have hb : budget = 0 := by
          rcases hend with (hr | ht') | hb
          · exact absurd ha hr
          · exact absurd ht' ht
          · omega
        rw [if_neg ht, hb]; rfl
    · rw [repeatRuns_rejected ex req expected least budget p ha, Progress.close, if_neg ha]; rfl
  | n + 1, budget + 1, s, p, hlt, hfirst, hend => by
    have h0 := hfirst 0 (Nat.succ_pos n)
    rw [Ends, not_or, not_not] at h0
    have hshift : ∀ i, Ends ex req expected least s (i + 1) ↔ Ends ex req expected least (sessionAt ex req s 1) i := by
      intro i; rw [Ends, outcomeAt_succ, elapsedAt_succ, ← Ends]
    rw [repeatRuns_accepted ex req expected least budget p h0.1, if_neg h0.2,
      repeatRuns_eq n budget _ _ (by omega) (fun i hi => (hshift i).not.mp (hfirst (i + 1) (by omega)))
        (hend.imp (hshift n).mp (by omega)),
      outcomesUpTo_succ', outcomeAt_succ, sessionAt_succ' ex req s (n + 1), List.foldl_cons]

/-- There is always such a place within the bound. -/
theorem exists_end (s : Session σ) {budget : Nat} (hb : 0 < budget) :
    ∃ n < budget, (∀ i < n, ¬ Ends ex req expected least s i) ∧
      (Ends ex req expected least s n ∨ n + 1 = budget) := by
  classical
  by_cases h : ∃ i, i < budget ∧ Ends ex req expected least s i
  · obtain ⟨hlt, hend⟩ := Nat.find_spec h
    refine ⟨Nat.find h, hlt, fun i hi he => ?_, Or.inl hend⟩
    exact Nat.find_min h hi ⟨by omega, he⟩
  · refine ⟨budget - 1, by omega, fun i hi he => h ⟨i, by omega, he⟩, Or.inr (by omega)⟩

end Loop

/-! ### Progress as a fold over outcomes -/

/-- The samples among outcomes. -/
def samplesOf (outcomes : List (Except Fault Sample)) : List Sample := outcomes.filterMap Except.toOption

/-- The output of the last sample, trimmed. -/
def lastOutput (samples : List Sample) : Bytes := (samples.getLast?.map fun s => s.stdout.trim).getD []

/-- The peak of memory over the samples, at least zero. -/
def peakMemory (samples : List Sample) : Int64 := (samples.map Sample.memoryKb).foldl max 0

/-- Progress that shows outcomes: the last output and the peak of all of them. -/
structure Progress.Shows (p : Progress) (outcomes : List (Except Fault Sample)) : Prop where
  output : p.output = lastOutput (samplesOf outcomes)
  peak : p.peakMemoryKb = peakMemory (samplesOf outcomes)

theorem samplesOf_concat (outcomes : List (Except Fault Sample)) (o : Except Fault Sample) :
    samplesOf (outcomes ++ [o]) = samplesOf outcomes ++ o.toOption.toList := by
  rw [samplesOf, List.filterMap_append, samplesOf]
  cases o <;> rfl

theorem Progress.Shows.note {p : Progress} {outcomes : List (Except Fault Sample)} (h : p.Shows outcomes) :
    ∀ o, (p.note o).Shows (outcomes ++ [o])
  | .error _ => by
    refine ⟨?_, ?_⟩ <;> rw [samplesOf_concat]
    · simpa [Except.toOption, Progress.note] using h.output
    · simpa [Except.toOption, Progress.note] using h.peak
  | .ok sample => by
    refine ⟨?_, ?_⟩ <;> rw [samplesOf_concat]
    · simp [Except.toOption, Progress.note, lastOutput]
    · simp [Except.toOption, Progress.note, peakMemory, h.peak]

theorem Progress.Shows.addTime {p : Progress} {outcomes : List (Except Fault Sample)} (h : p.Shows outcomes) :
    ∀ o, (p.addTime o).Shows outcomes
  | .error _ => h
  | .ok _ => ⟨h.output, h.peak⟩

theorem Progress.Shows.takes : ∀ {p : Progress} {seen : List (Except Fault Sample)}, p.Shows seen →
    ∀ outcomes : List (Except Fault Sample), (outcomes.foldl Progress.take p).Shows (seen ++ outcomes)
  | _, _, h, [] => by simpa using h
  | p, seen, h, o :: rest => by
    have hrec := Progress.Shows.takes ((h.note o).addTime o) rest
    simpa [Progress.take] using hrec

/-- The times gathered are those of the samples, the latest first. -/
theorem times_takes : ∀ (outcomes : List (Except Fault Sample)) (p : Progress),
    (outcomes.foldl Progress.take p).times = ((samplesOf outcomes).map Sample.timeMs).reverse ++ p.times
  | [], p => rfl
  | .error e :: rest, p => times_takes rest p
  | .ok sample :: rest, p => by
    rw [List.foldl_cons, times_takes rest]
    simp [samplesOf, Except.toOption, Progress.take, Progress.note, Progress.addTime]

end Stopwatch.Measure
