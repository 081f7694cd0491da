import Mathlib.Order.Bounds.Defs
import Stopwatch.Bench.Runner
import Stopwatch.Proofs.Trace

/-!
What a measurement reports. The result is a function of the outcomes up to the run that ended it (`reference`), and a
success stands for accepted runs only, apart from the one status that an executor should not return.
-/

namespace Stopwatch.Measure

/-! ### Progress at the end -/

section Closing
variable {σ : Type} {ex : Executor σ} {req : RunRequest} {expected : Bytes} {s : Session σ} {n : Nat}

theorem outcomesUpTo_succ : outcomesUpTo ex req s (n + 1) = outcomesUpTo ex req s n ++ [outcomeAt ex req s n] := by
  simp [outcomesUpTo, List.range_succ]

@[simp] theorem length_outcomesUpTo : (outcomesUpTo ex req s n).length = n := by simp [outcomesUpTo]

/-- Accepted outcomes are samples, one for one. -/
theorem length_samplesOf : ∀ {outcomes : List (Except Fault Sample)}, (∀ o ∈ outcomes, Accepted expected o) →
    (samplesOf outcomes).length = outcomes.length
  | [], _ => rfl
  | .error _ :: _, h => (h _ (List.mem_cons_self ..)).elim
  | .ok sample :: rest, h => by
    have hrec := length_samplesOf fun o ho => h o (List.mem_cons_of_mem _ ho)
    simpa [samplesOf, Except.toOption] using hrec

theorem accepted_of_mem_outcomesUpTo (h : ∀ i < n, Accepted expected (outcomeAt ex req s i)) :
    ∀ o ∈ outcomesUpTo ex req s n, Accepted expected o := by
  intro o ho
  obtain ⟨i, hi, rfl⟩ := List.mem_map.mp ho
  exact h i (List.mem_range.mp hi)

/-- Progress where a measurement ends shows all outcomes. -/
theorem close_shows : (((outcomesUpTo ex req s n).foldl Progress.take {}).close expected
    (outcomeAt ex req s n)).Shows (outcomesUpTo ex req s (n + 1)) := by
  have hshow : ((outcomesUpTo ex req s n).foldl Progress.take {}).Shows (outcomesUpTo ex req s n) := by
    have hnone : Progress.Shows {} [] := ⟨rfl, rfl⟩
    simpa using hnone.takes (outcomesUpTo ex req s n)
  rw [outcomesUpTo_succ, Progress.close]
  split
  · exact (hshow.note _).addTime _
  · exact hshow.note _

/-- If the last outcome was accepted, its time is there too. -/
theorem times_close_accepted (h : Accepted expected (outcomeAt ex req s n)) :
    (((outcomesUpTo ex req s n).foldl Progress.take {}).close expected (outcomeAt ex req s n)).times.reverse =
      (samplesOf (outcomesUpTo ex req s (n + 1))).map Sample.timeMs := by
  have hfold : ((outcomesUpTo ex req s n).foldl Progress.take {}).take (outcomeAt ex req s n) =
      (outcomesUpTo ex req s (n + 1)).foldl Progress.take {} := by
    rw [outcomesUpTo_succ, List.foldl_append]; rfl
  rw [Progress.close, if_pos h, hfold, times_takes]
  simp

/-- If it was not, the times are those of the outcomes before. -/
theorem times_close_rejected (h : ¬ Accepted expected (outcomeAt ex req s n)) :
    (((outcomesUpTo ex req s n).foldl Progress.take {}).close expected (outcomeAt ex req s n)).times.reverse =
      (samplesOf (outcomesUpTo ex req s n)).map Sample.timeMs := by
  have hnote : ∀ (p : Progress) (o : Except Fault Sample), (p.note o).times = p.times := by
    rintro p (_ | _) <;> rfl
  rw [Progress.close, if_neg h, hnote, times_takes]
  simp

theorem length_times_close_rejected (hbefore : ∀ i < n, Accepted expected (outcomeAt ex req s i))
    (h : ¬ Accepted expected (outcomeAt ex req s n)) :
    (((outcomesUpTo ex req s n).foldl Progress.take {}).close expected (outcomeAt ex req s n)).times.length = n := by
  rw [← List.length_reverse, times_close_rejected h, List.length_map,
    length_samplesOf (accepted_of_mem_outcomesUpTo hbefore), length_outcomesUpTo]

end Closing

end Stopwatch.Measure

namespace Stopwatch.Runner

open Stopwatch.Measure

section
variable {σ : Type} (plan : RunPlan) (req : Request) (p : Program) (s : State σ) (station : Station σ)

/-- What a run of a program brings at a station, counted from zero. -/
def outcome (i : Nat) : Except Fault Sample :=
  outcomeAt station.executor (runRequest plan.workDir req p) (s.session station) i

/-- Whether a run of a program is one after which its measurement ends. -/
def EndsAt (i : Nat) : Prop :=
  Ends station.executor (runRequest plan.workDir req p) p.expectOutput (nanoseconds req.minDurationMs).toInt
    (s.session station) i

instance (i : Nat) : Decidable (EndsAt plan req p s station i) := inferInstanceAs (Decidable (Ends ..))

/-- Progress when the run with a number is the last. -/
def progressAt (n : Nat) : Progress :=
  ((outcomesUpTo station.executor (runRequest plan.workDir req p) (s.session station) n).foldl Progress.take {}).close
    p.expectOutput (outcome plan req p s station n)

variable {plan req p s station}

theorem filter_isAct_called (kind : Bytes) (requests : List RunRequest) :
    (requests.map (Event.called kind)).filter Event.isAct = requests.map (Event.called kind) := by
  rw [List.filter_eq_self]
  intro e he
  obtain ⟨r, -, rfl⟩ := List.mem_map.mp he
  rfl

theorem filter_isAct_log {α : Type} (message : α → Bytes) (xs : List α) :
    (xs.map fun x => Event.log (message x)).filter Event.isAct = [] := by
  rw [List.filter_eq_nil_iff]
  intro e he
  obtain ⟨x, -, rfl⟩ := List.mem_map.mp he
  simp [Event.log, Event.isAct]

/-- A measurement that ends at a run, seen from outside: its result and its calls. -/
theorem measure_eq (registered : s.station? p.kind = some station) {n : Nat} (hn : n < mostRuns)
    (hfirst : ∀ i < n, ¬ EndsAt plan req p s station i) (hend : EndsAt plan req p s station n ∨ n + 1 = mostRuns) :
    (measure plan req p s).1 =
        conclude req.id p.name ((judge p.expectOutput (outcome plan req p s station n)).getD timeUp)
          (progressAt plan req p s station n) ∧
      (measure plan req p s).2.2.filter Event.isAct =
        List.replicate (n + 1) (Event.called p.kind (runRequest plan.workDir req p)) := by
  have hloop := repeatRuns_eq station.executor (runRequest plan.workDir req p) p.expectOutput
    (nanoseconds req.minDurationMs).toInt n mostRuns (s.session station) {} hn hfirst hend
  refine ⟨?_, ?_⟩
  · rw [measure]
    simp only [registered, hloop]
    rfl
  · rw [measure]
    simp only [registered, hloop, List.filter_append, calls_sessionAt, filter_isAct_called, filter_isAct_log]
    simp [State.session]

/-- Every measurement at a station has a last run. -/
theorem exists_last_run (registered : s.station? p.kind = some station) :
    ∃ n < mostRuns, (∀ i < n, ¬ EndsAt plan req p s station i) ∧
      (measure plan req p s).1 =
        conclude req.id p.name ((judge p.expectOutput (outcome plan req p s station n)).getD timeUp)
          (progressAt plan req p s station n) ∧
      (measure plan req p s).2.2.filter Event.isAct =
        List.replicate (n + 1) (Event.called p.kind (runRequest plan.workDir req p)) := by
  obtain ⟨n, hn, hfirst, hend⟩ := exists_end station.executor (runRequest plan.workDir req p) p.expectOutput
    (nanoseconds req.minDurationMs).toInt (s.session station) (show 0 < mostRuns by decide)
  exact ⟨n, hn, hfirst, measure_eq registered hn hfirst hend⟩

end

/-! ### The result as a function of the outcomes -/

/-- What a measurement reports whose outcomes are `o 0` to `o n` and that ended with the last of them. -/
def reference (req : Request) (p : Program) (o : Nat → Except Fault Sample) (n : Nat) : Result :=
  let samples := samplesOf ((List.range (n + 1)).map o)
  let times := samples.map Sample.timeMs
  let base : Result :=
    { requestId := req.id
      program := p.name
      samples := Int64.ofNat n
      peakMemoryKb := peakMemory samples
      output := lastOutput samples }
  match o n with
  | .error fault =>
    { base with status := .internalError, error := utf8 "execution failed: " ++ fault.message }
  | .ok last =>
    if last.status ≠ .success then
      { base with status := last.status, error := if last.stderr = [] then last.status.text else last.stderr }
    else if outputMatches last.stdout p.expectOutput = false then
      { base with
        status := .wrongOutput
        error := utf8 "expected " ++ quote p.expectOutput.trim ++ utf8 ", got " ++ quote last.stdout.trim }
    else
      { base with
        status := .success
        samples := Int64.ofNat (n + 1)
        meanMs := Stats.geometricMean (if 2 < n + 1 then (times.drop 1).take (n - 1) else times)
        minMs := (Stats.range times).1
        maxMs := (Stats.range times).2 }

theorem samples_reference_accepted {req : Request} {p : Program} {o : Nat → Except Fault Sample} {n : Nat}
    (h : Accepted p.expectOutput (o n)) : (reference req p o n).samples = Int64.ofNat (n + 1) := by
  cases ho : o n with
  | error fault => rw [ho] at h; exact h.elim
  | ok last =>
    rw [ho] at h
    simp [reference, ho, h.1, h.2]

theorem samples_reference_rejected {req : Request} {p : Program} {o : Nat → Except Fault Sample} {n : Nat}
    (h : ¬ Accepted p.expectOutput (o n)) : (reference req p o n).samples = Int64.ofNat n := by
  cases ho : o n with
  | error fault => simp [reference, ho]
  | ok last =>
    by_cases hs : last.status = .success
    · have hm : outputMatches last.stdout p.expectOutput = false := by simpa [Accepted, ho, hs] using h
      simp [reference, ho, hs, hm]
    · simp [reference, ho, hs]

/-- The runs of a measurement can be counted in 64 bits. -/
theorem toInt_ofNat_of_le {n : Nat} (h : n ≤ mostRuns) : (Int64.ofNat n).toInt = n := by
  refine Int64.toInt_ofNat_of_lt ?_
  simp only [mostRuns, Nat.pow_eq] at h
  omega

theorem trimEnds_eq {times : List Float} {n : Nat} (h : times.length = n + 1) :
    Stats.trimEnds times = if 2 < n + 1 then (times.drop 1).take (n - 1) else times := by
  rw [Stats.trimEnds, h, List.dropLast_eq_take, List.length_tail, h, List.drop_one]
  rfl

section
variable {σ : Type} {plan : RunPlan} {req : Request} {p : Program} {s : State σ} {station : Station σ}

/-- Until a measurement ends, all outcomes are accepted. -/
theorem accepted_of_not_endsAt {n : Nat} (h : ∀ i < n, ¬ EndsAt plan req p s station i) :
    ∀ i < n, Accepted p.expectOutput (outcome plan req p s station i) :=
  fun i hi => not_not.mp (not_or.mp (h i hi)).1

/-- The outcomes of a program up to a run. -/
abbrev outcomes (plan : RunPlan) (req : Request) (p : Program) (s : State σ) (station : Station σ) (n : Nat) :
    List (Except Fault Sample) :=
  (List.range n).map (outcome plan req p s station)

theorem accepted_of_mem_outcomes {n : Nat} (h : ∀ i < n, Accepted p.expectOutput (outcome plan req p s station i)) :
    ∀ o ∈ outcomes plan req p s station n, Accepted p.expectOutput o := accepted_of_mem_outcomesUpTo h

theorem progressAt_shows (n : Nat) :
    (progressAt plan req p s station n).Shows (outcomes plan req p s station (n + 1)) := close_shows

theorem times_progressAt {n : Nat} (h : Accepted p.expectOutput (outcome plan req p s station n)) :
    (progressAt plan req p s station n).times.reverse =
      (samplesOf (outcomes plan req p s station (n + 1))).map Sample.timeMs := times_close_accepted h

theorem length_times_progressAt {n : Nat} (hbefore : ∀ i < n, Accepted p.expectOutput (outcome plan req p s station i))
    (h : ¬ Accepted p.expectOutput (outcome plan req p s station n)) :
    (progressAt plan req p s station n).times.length = n := length_times_close_rejected hbefore h

/-- The result after an accepted last run. -/
theorem conclude_accepted {n : Nat} (hbefore : ∀ i < n, Accepted p.expectOutput (outcome plan req p s station i))
    (hlast : Accepted p.expectOutput (outcome plan req p s station n)) :
    conclude req.id p.name ((judge p.expectOutput (outcome plan req p s station n)).getD timeUp)
      (progressAt plan req p s station n) = reference req p (outcome plan req p s station) n := by
  have htimes := times_progressAt hlast
  have hlength : ((samplesOf (outcomes plan req p s station (n + 1))).map Sample.timeMs).length = n + 1 := by
    have hall : ∀ i < n + 1, Accepted p.expectOutput (outcome plan req p s station i) := by
      intro i hi
      rcases Nat.lt_succ_iff_lt_or_eq.mp hi with hlt | rfl
      · exact hbefore i hlt
      · exact hlast
    rw [List.length_map, length_samplesOf (accepted_of_mem_outcomes hall), List.length_map, List.length_range]
  rw [judge_eq_none_iff.mpr hlast, Option.getD_none]
  simp only [conclude, timeUp, htimes, hlength, trimEnds_eq hlength, (progressAt_shows n).output,
    (progressAt_shows n).peak]
  cases ho : outcome plan req p s station n with
  | error fault => rw [ho] at hlast; exact hlast.elim
  | ok last =>
    rw [ho] at hlast
    simp [reference, ho, hlast.1, hlast.2]

/-- The result after a last run that was not accepted, if its status says how it ended. -/
theorem conclude_rejected {n : Nat} (hbefore : ∀ i < n, Accepted p.expectOutput (outcome plan req p s station i))
    (h : ¬ Accepted p.expectOutput (outcome plan req p s station n))
    (decided : ∀ sample, outcome plan req p s station n = .ok sample → sample.status ≠ .running) :
    conclude req.id p.name ((judge p.expectOutput (outcome plan req p s station n)).getD timeUp)
      (progressAt plan req p s station n) = reference req p (outcome plan req p s station) n := by
  have hlength := length_times_progressAt hbefore h
  cases ho : outcome plan req p s station n with
  | error fault =>
    simp [conclude, judge, reference, ho, hlength, (progressAt_shows n).output, (progressAt_shows n).peak]
  | ok last =>
    have hrunning := decided last ho
    by_cases hs : last.status = .success
    · have hm : outputMatches last.stdout p.expectOutput = false := by
        simpa [Accepted, ho, hs] using h
      simp [conclude, judge, reference, ho, hs, hm, hlength, (progressAt_shows n).output, (progressAt_shows n).peak]
    · simp [conclude, judge, reference, ho, hs, hrunning, hlength, (progressAt_shows n).output,
        (progressAt_shows n).peak]

/-- The result is the reference, unless the last run left its status open. -/
theorem conclude_eq_reference {n : Nat} (hbefore : ∀ i < n, Accepted p.expectOutput (outcome plan req p s station i))
    (decided : ∀ sample, outcome plan req p s station n = .ok sample → sample.status ≠ .running) :
    conclude req.id p.name ((judge p.expectOutput (outcome plan req p s station n)).getD timeUp)
      (progressAt plan req p s station n) = reference req p (outcome plan req p s station) n := by
  by_cases h : Accepted p.expectOutput (outcome plan req p s station n)
  · exact conclude_accepted hbefore h
  · exact conclude_rejected hbefore h decided

end

/-- A measurement of a program whose executor is registered ends with the first run that failed, printed something
unexpected or met the least duration. The executor was called once for each run up to that one, with the same request,
and the result is the reference, whose number of samples is exact as far as it can be counted. -/
theorem measure_eq_reference {σ : Type} (plan : RunPlan) (req : Request) (p : Program) (s : State σ)
    (station : Station σ) (registered : s.station? p.kind = some station) (n : Nat)
    (first : IsLeast {i | EndsAt plan req p s station i} n) (counted : n < mostRuns)
    (decided : ∀ sample, outcome plan req p s station n = .ok sample → sample.status ≠ .running) :
    (measure plan req p s).1 = reference req p (outcome plan req p s station) n ∧
      (measure plan req p s).2.2.filter Event.isAct =
        List.replicate (n + 1) (.called p.kind (runRequest plan.workDir req p)) ∧
      (measure plan req p s).1.samples.toInt =
        if Accepted p.expectOutput (outcome plan req p s station n) then n + 1 else n := by
  obtain ⟨hend, hleast⟩ := first
  have hfirst : ∀ i < n, ¬ EndsAt plan req p s station i := fun i hi he => absurd (hleast he) (by omega)
  have hbefore := accepted_of_not_endsAt hfirst
  obtain ⟨hresult, hcalls⟩ := measure_eq registered counted hfirst (Or.inl hend)
  rw [conclude_eq_reference hbefore decided] at hresult
  refine ⟨hresult, hcalls, ?_⟩
  rw [hresult]
  split
  · next ha => rw [samples_reference_accepted ha, toInt_ofNat_of_le counted]
  · next ha => rw [samples_reference_rejected ha, toInt_ofNat_of_le (Nat.le_of_lt counted)]

/-- A program that prints its answer every 0.4 milliseconds, measured for one millisecond. -/
theorem measure_three_runs :
    let p : Program := { name := utf8 "fib", expectOutput := utf8 "5" }
    let req : Request := { id := utf8 "r", minDurationMs := 1 }
    let station : Station Nat :=
      { kind := utf8 "direct"
        executor := tape (fun i => .ok { stdout := utf8 "5\n", timeMs := Float.ofNat i }) fun i => 400000 * (i + 1)
        state := 0 }
    (measure {} req p { stations := [station] }).1.status = .success ∧
      (measure {} req p { stations := [station] }).1.samples = 3 ∧
      ((measure {} req p { stations := [station] }).2.2.filter Event.isAct).length = 3 := by
  intro p req station
  have hends : IsLeast {i | EndsAt {} req p { stations := [station] } station i} 2 := by
    refine ⟨show EndsAt {} req p { stations := [station] } station 2 by decide, ?_⟩
    rintro (_ | _ | i) hi
    · exact absurd (show EndsAt {} req p { stations := [station] } station 0 from hi) (by decide)
    · exact absurd (show EndsAt {} req p { stations := [station] } station 1 from hi) (by decide)
    · omega
  have hdecided : ∀ sample, outcome {} req p { stations := [station] } station 2 = .ok sample →
      sample.status ≠ .running := by
    intro sample h
    change Except.ok _ = Except.ok sample at h
    cases h; decide
  obtain ⟨hresult, hcalls, -⟩ :=
    measure_eq_reference {} req p { stations := [station] } station rfl 2 hends (by decide) hdecided
  rw [hresult, hcalls]
  exact ⟨by decide, by decide, rfl⟩

/-! ### Successes stand for accepted runs -/

section
variable {req : Request} {p : Program} {o : Nat → Except Fault Sample} {n : Nat}

/-- The reference reports a success exactly for an accepted last run. -/
theorem status_reference_eq_success_iff : (reference req p o n).status = .success ↔ Accepted p.expectOutput (o n) := by
  cases ho : o n with
  | error fault => simp [reference, ho, Accepted]
  | ok last =>
    by_cases hs : last.status = .success
    · by_cases hm : outputMatches last.stdout p.expectOutput = true <;> simp [reference, ho, hs, hm, Accepted]
    · simp [reference, ho, hs, Accepted]

/-- It has an error text for every other, as long as statuses have words. -/
theorem error_reference_eq_nil_iff (named : ∀ sample, o n = .ok sample → sample.status.text ≠ []) :
    (reference req p o n).error = [] ↔ Accepted p.expectOutput (o n) := by
  have htext : ∀ (text : String) (rest : Bytes), utf8 text ≠ [] → utf8 text ++ rest ≠ [] :=
    fun _ rest h => List.append_ne_nil_of_left_ne_nil h rest
  cases ho : o n with
  | error fault =>
    have := htext "execution failed: " fault.message (by decide)
    simpa [reference, ho, Accepted] using this
  | ok last =>
    by_cases hs : last.status = .success
    · by_cases hm : outputMatches last.stdout p.expectOutput = true
      · simp [reference, ho, hs, hm, Accepted]
      · have := htext "expected " (quote p.expectOutput.trim ++ utf8 ", got " ++ quote last.stdout.trim) (by decide)
        simpa [reference, ho, hs, hm, Accepted] using this
    · by_cases he : last.stderr = [] <;> simp [reference, ho, hs, he, named last ho, Accepted]

end

/-- A last run with the status of a measurement under way is reported as a success, with an error text and without a
sample of its own. -/
theorem conclude_running {σ : Type} {plan : RunPlan} {req : Request} {p : Program} {s : State σ} {station : Station σ}
    {n : Nat} (hbefore : ∀ i < n, Accepted p.expectOutput (outcome plan req p s station i)) {sample : Sample}
    (ho : outcome plan req p s station n = .ok sample) (hs : sample.status = .running) :
    let result := conclude req.id p.name ((judge p.expectOutput (outcome plan req p s station n)).getD timeUp)
      (progressAt plan req p s station n)
    result.status = .success ∧ result.error ≠ [] ∧ result.samples = Int64.ofNat n := by
  have hrejected : ¬ Accepted p.expectOutput (outcome plan req p s station n) := by simp [ho, Accepted, hs]
  have hlength := length_times_progressAt hbefore hrejected
  have htext : Status.running.text ≠ [] := by decide
  by_cases he : sample.stderr = [] <;> simp [ho, judge, conclude, hs, hlength, he, htext]

/-- Whether successes can be trusted: each stands for at least one run and only for accepted ones, and they alone have no
error text. This holds of a measurement exactly if its last run did not return the status of a measurement under way,
which is otherwise reported as a success. -/
theorem success_sound_iff {σ : Type} (plan : RunPlan) (req : Request) (p : Program) (s : State σ)
    (station : Station σ) (registered : s.station? p.kind = some station)
    (named : ∀ i sample, outcome plan req p s station i = .ok sample → sample.status.text ≠ []) :
    ∃ last,
      (measure plan req p s).2.2.filter Event.isAct =
        List.replicate (last + 1) (.called p.kind (runRequest plan.workDir req p)) ∧
      (∀ i < last, Accepted p.expectOutput (outcome plan req p s station i)) ∧
      ((((measure plan req p s).1.status = .success → 1 ≤ (measure plan req p s).1.samples.toInt ∧
            ∀ i ≤ last, Accepted p.expectOutput (outcome plan req p s station i)) ∧
          ((measure plan req p s).1.error = [] ↔ (measure plan req p s).1.status = .success)) ↔
        ∀ sample, outcome plan req p s station last = .ok sample → sample.status ≠ .running) := by
  obtain ⟨n, hn, hfirst, hresult, hcalls⟩ := exists_last_run registered
  have hbefore := accepted_of_not_endsAt hfirst
  refine ⟨n, hcalls, hbefore, ?_⟩
  by_cases hrunning : ∃ sample, outcome plan req p s station n = .ok sample ∧ sample.status = .running
  · -- the result is called a success although its error text is not empty
    obtain ⟨sample, ho, hs⟩ := hrunning
    obtain ⟨hstatus, herror, -⟩ := conclude_running hbefore ho hs
    rw [← hresult] at hstatus herror
    exact ⟨fun h => absurd (h.2.mpr hstatus) herror, fun h => absurd hs (h sample ho)⟩
  · have hdecided : ∀ sample, outcome plan req p s station n = .ok sample → sample.status ≠ .running :=
      fun sample ho hs => hrunning ⟨sample, ho, hs⟩
    rw [conclude_eq_reference hbefore hdecided] at hresult
    refine ⟨fun _ => hdecided, fun _ => ?_⟩
    rw [hresult, status_reference_eq_success_iff, error_reference_eq_nil_iff (named n)]
    refine ⟨fun ha => ⟨?_, fun i hi => ?_⟩, Iff.rfl⟩
    · rw [samples_reference_accepted ha, toInt_ofNat_of_le hn]; omega
    · rcases Nat.lt_or_eq_of_le hi with hlt | rfl
      · exact hbefore i hlt
      · exact ha

/-- An executor that always answers with the status of a measurement under way. -/
theorem success_sound_fails_running :
    let p : Program := { name := utf8 "fib", expectOutput := utf8 "5" }
    let o : Nat → Except Fault Sample := fun _ => .ok { status := .running, stderr := utf8 "lost" }
    let station : Station Nat := { kind := utf8 "direct", executor := tape o fun _ => 0, state := 0 }
    let result := (measure {} {} p { stations := [station] }).1
    ¬ ((result.status = .success → 1 ≤ result.samples.toInt ∧ Accepted p.expectOutput (o 0)) ∧
      (result.error = [] ↔ result.status = .success)) := by
  intro p o station result
  have htrace : outcome {} {} p { stations := [station] } station = o :=
    (tape_trace o (fun _ _ _ => Nat.le_refl 0) _).1
  have hnamed : ∀ i sample, outcome {} {} p { stations := [station] } station i = .ok sample →
      sample.status.text ≠ [] := by
    intro i sample h
    rw [htrace] at h
    cases h; decide
  obtain ⟨last, -, hbefore, hsound⟩ := success_sound_iff {} {} p { stations := [station] } station rfl hnamed
  rw [htrace] at hbefore hsound
  -- no run is accepted, so the first was the last
  have hlast : last = 0 := by
    by_contra hne
    exact absurd (hbefore 0 (by omega)).1 (by decide)
  subst hlast
  intro hguarantee
  have hall : ∀ h : result.status = .success, ∀ i ≤ 0, Accepted p.expectOutput (o i) :=
    fun h i hi => (Nat.le_zero.mp hi) ▸ (hguarantee.1 h).2
  exact hsound.mp ⟨fun h => ⟨(hguarantee.1 h).1, hall h⟩, hguarantee.2⟩ _ rfl rfl

end Stopwatch.Runner
