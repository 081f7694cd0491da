import Stopwatch.Proofs.Independence
import Stopwatch.Proofs.Verdict

/-!
Values at or below zero in a geometric mean. The mean skips them: neither the sum of the logarithms nor the number by
which it is divided knows of them, at whatever place of a list they stand. So the mean of a program is that of those of its
samples that are not skipped, and a program whose own mean is zero is one that the score of the run does not know of.
-/

namespace Stopwatch

namespace Stats

/-- The values that a mean does not skip. What is no number stays, because it is not at or below zero either. -/
def counted (values : List Float) : List Float := values.filter fun v => ¬ v ≤ 0

theorem counted_append (xs ys : List Float) : counted (xs ++ ys) = counted xs ++ counted ys := List.filter_append ..

theorem counted_counted (values : List Float) : counted (counted values) = counted values := by
  simp [counted]

theorem counted_cons_of_le {v : Float} (h : v ≤ 0) (values : List Float) : counted (v :: values) = counted values :=
  List.filter_cons_of_neg (by simpa using h)

theorem counted_cons_of_not_le {v : Float} (h : ¬ v ≤ 0) (values : List Float) :
    counted (v :: values) = v :: counted values := List.filter_cons_of_pos (by simpa using h)

theorem counted_eq_nil_iff {values : List Float} : counted values = [] ↔ ∀ v ∈ values, v ≤ 0 := by
  simp [counted]

/-- The fold over the values sums the logarithms of those that count, in order, and counts them. -/
theorem foldl_addLog (values : List Float) (acc : Float × Nat) :
    values.foldl addLog acc =
      (((counted values).map Float.log).foldl (· + ·) acc.1, acc.2 + (counted values).length) := by
  induction values generalizing acc with
  | nil => rfl
  | cons v rest ih =>
    rw [List.foldl_cons, ih, addLog]
    split
    · next h => rw [counted_cons_of_le h]
    · next h =>
      rw [counted_cons_of_not_le h, List.map_cons, List.foldl_cons, List.length_cons]
      simp only [Nat.add_assoc, Nat.add_comm 1]

theorem geometricMean_eq (values : List Float) :
    geometricMean values =
      if (counted values).isEmpty then 0
      else Float.exp (((counted values).map Float.log).foldl (· + ·) 0 / Float.ofNat (counted values).length) := by
  simp only [geometricMean, foldl_addLog, Nat.zero_add, List.length_eq_zero_iff, List.isEmpty_iff]

/-- Values that differ in skipped ones only have the same mean. -/
theorem geometricMean_congr {values others : List Float} (h : counted values = counted others) :
    geometricMean values = geometricMean others := by
  rw [geometricMean_eq, geometricMean_eq, h]

theorem geometricMean_eq_zero {values : List Float} (h : ∀ v ∈ values, v ≤ 0) : geometricMean values = 0 := by
  rw [geometricMean_eq, counted_eq_nil_iff.mpr h]
  rfl

end Stats

namespace Runner

open Stopwatch.Measure Stopwatch.Stats

/-! ### The mean of a program -/

/-- No outcome ends a measurement as a success. -/
theorem status_judge_ne_success {expected : Bytes} {o : Except Fault Sample} {ending : Ending}
    (h : judge expected o = some ending) : ending.status ≠ .success := by
  cases o with
  | error fault =>
    cases h
    exact show Status.internalError ≠ .success by decide
  | ok sample =>
    rw [judge] at h
    split at h
    · next hstatus =>
      cases h
      exact hstatus
    · split at h
      · cases h
      · cases h
        exact show Status.wrongOutput ≠ .success by decide

/-- A measurement is reported as a success only with the mean of its times. -/
theorem meanMs_conclude {expected requestId program : Bytes} {o : Except Fault Sample} {progress : Progress}
    (h : (conclude requestId program ((judge expected o).getD timeUp) progress).status = .success) :
    (conclude requestId program ((judge expected o).getD timeUp) progress).meanMs =
      geometricMean (trimEnds progress.times.reverse) := by
  by_cases hrunning : ((judge expected o).getD timeUp).status = .running
  · simp only [conclude, hrunning, if_true]
  · exfalso
    simp only [conclude, hrunning, if_false] at h
    cases hjudge : judge expected o with
    | none =>
      rw [hjudge] at hrunning
      exact hrunning rfl
    | some ending =>
      rw [hjudge] at h
      exact status_judge_ne_success hjudge h

section
variable {σ : Type} (plan : RunPlan) (req : Request) (p : Program) (s : State σ) (station : Station σ)

/-- The times of the accepted ones among the first runs of a program. -/
def acceptedTimes (n : Nat) : List Float :=
  (samplesOf ((outcomes plan req p s station n).filter fun o => Accepted p.expectOutput o)).map Sample.timeMs

variable {plan req p s station}

theorem filter_outcomes {n : Nat} (h : ∀ i < n, Accepted p.expectOutput (outcome plan req p s station i)) :
    (outcomes plan req p s station n).filter (fun o => Accepted p.expectOutput o) = outcomes plan req p s station n := by
  refine List.filter_eq_self.mpr fun o ho => ?_
  exact decide_eq_true (accepted_of_mem_outcomes h o ho)

/-- The times that a measurement has gathered at its end, whether its last run was accepted or not. -/
theorem times_progressAt_eq {n : Nat} (hbefore : ∀ i < n, Accepted p.expectOutput (outcome plan req p s station i)) :
    (progressAt plan req p s station n).times.reverse = acceptedTimes plan req p s station (n + 1) := by
  have hsplit : outcomes plan req p s station (n + 1) =
      outcomes plan req p s station n ++ [outcome plan req p s station n] := outcomesUpTo_succ
  by_cases hlast : Accepted p.expectOutput (outcome plan req p s station n)
  · rw [times_progressAt hlast, acceptedTimes, hsplit, List.filter_append, filter_outcomes hbefore,
      List.filter_cons_of_pos (by simpa using hlast), List.filter_nil]
  · rw [acceptedTimes, hsplit, List.filter_append, filter_outcomes hbefore,
      List.filter_cons_of_neg (by simpa using hlast), List.filter_nil, List.append_nil]
    exact times_close_rejected hlast

/-- Every time of a measurement is that of one of its runs. -/
theorem exists_sample_of_time {n : Nat} {t : Float} (h : t ∈ trimEnds (acceptedTimes plan req p s station n)) :
    ∃ i sample, outcome plan req p s station i = .ok sample ∧ sample.timeMs = t := by
  have hmem : t ∈ acceptedTimes plan req p s station n := by
    rw [trimEnds] at h
    split at h
    · exact List.mem_of_mem_tail ((List.dropLast_sublist _).mem h)
    · exact h
  obtain ⟨sample, hsample, rfl⟩ := List.mem_map.mp hmem
  obtain ⟨o, ho, hsome⟩ := List.mem_filterMap.mp hsample
  obtain ⟨i, -, rfl⟩ := List.mem_map.mp (List.mem_filter.mp ho).1
  refine ⟨i, sample, ?_, rfl⟩
  cases hi : outcome plan req p s station i with
  | error fault =>
    rw [hi] at hsome
    cases hsome
  | ok sample' =>
    rw [hi] at hsome
    cases hsome
    rfl

/-- A success has the mean of the times of its accepted runs, without the ends. The number of runs is that of the calls. -/
theorem meanMs_measure (registered : s.station? p.kind = some station) :
    ∃ n, (measure plan req p s).2.2.filter Event.isAct =
        List.replicate n (.called p.kind (runRequest plan.workDir req p)) ∧
      ((measure plan req p s).1.status = .success → (measure plan req p s).1.meanMs =
        geometricMean (trimEnds (acceptedTimes plan req p s station n))) := by
  obtain ⟨n, -, hfirst, hresult, hcalls⟩ := @exists_last_run σ plan req p s station registered
  refine ⟨n + 1, hcalls, fun hsuccess => ?_⟩
  rw [hresult] at hsuccess ⊢
  rw [meanMs_conclude hsuccess, times_progressAt_eq (accepted_of_not_endsAt hfirst)]

end

/-! ### The score of a run -/

/-- A result whose mean is skipped can be left out. -/
theorem score_append_cons (before after : List Result) {r : Result} (hmean : r.meanMs ≤ 0) :
    score (before ++ r :: after) = score (before ++ after) := by
  refine geometricMean_congr ?_
  rw [successes, successes, List.filter_append, List.filter_append, List.map_append, List.map_append, counted_append,
    counted_append, List.filter_cons]
  split
  · rw [List.map_cons, counted_cons_of_le hmean]
  · rfl

theorem score_eraseIdx {results : List Result} {i : Nat} {r : Result} (hr : results[i]? = some r) (hmean : r.meanMs ≤ 0) :
    score results = score (results.eraseIdx i) := by
  obtain ⟨hi, rfl⟩ := List.getElem?_eq_some_iff.mp hr
  rw [List.eraseIdx_eq_take_drop_succ, ← score_append_cons _ _ hmean, ← List.drop_eq_getElem_cons hi,
    List.take_append_drop]

/-- Every result of a report is the measurement of the program at its place in the request. -/
theorem exists_program_of_result {σ : Type} {plan : RunPlan} {req : Request} {s : State σ} {i : Nat} {r : Result}
    (h : ((run plan req s).report.results.getD [])[i]? = some r) :
    ∃ p, req.programList[i]? = some p ∧ r = (measure plan req p (stateAfter plan req s (req.programList.take i))).1 := by
  rw [results_report, getElem?_resultsOf] at h
  obtain ⟨p, hp, hr⟩ := Option.map_eq_some_iff.mp h
  rw [List.getElem?_take] at hp
  split at hp
  · next hi =>
    rw [List.take_take, Nat.min_eq_left (Nat.le_of_lt hi)] at hr
    exact ⟨p, hp, hr.symm⟩
  · cases hp

/-- Values at or below zero influence neither a mean nor the score. The mean of any values is that of the ones that are
left without them: the exponential of their mean logarithm, or zero if none is left. A successful measurement reports the
mean of what is left of the times of its accepted runs, the ends apart, and zero if nothing is. And a program whose mean is
not above zero, successful or not, can be left out of the score wherever it stands in the request: the score is the mean of
the means of the other successful programs. -/
theorem nonpositive_skipped {σ : Type} :
    (∀ values : List Float,
      let left := values.filter fun v => ¬ v ≤ 0
      geometricMean values = geometricMean left ∧
        geometricMean values = if left.isEmpty then 0 else
          Float.exp ((left.map Float.log).foldl (· + ·) 0 / Float.ofNat left.length)) ∧
    (∀ (plan : RunPlan) (req : Request) (p : Program) (s : State σ) (station : Station σ),
      s.station? p.kind = some station →
      ∃ n, (measure plan req p s).2.2.filter Event.isAct =
          List.replicate n (.called p.kind (runRequest plan.workDir req p)) ∧
        ((measure plan req p s).1.status = .success →
          let times := trimEnds (acceptedTimes plan req p s station n)
          (measure plan req p s).1.meanMs = geometricMean (times.filter fun t => ¬ t ≤ 0) ∧
            ((∀ t ∈ times, t ≤ 0) → (measure plan req p s).1.meanMs = 0))) ∧
    ∀ (plan : RunPlan) (req : Request) (s : State σ) (i : Nat) (r : Result),
      let report := (run plan req s).report
      let results := report.results.getD []
      results[i]? = some r → r.meanMs ≤ 0 →
      (∃ p, req.programList[i]? = some p ∧
          r = (measure plan req p (stateAfter plan req s (req.programList.take i))).1) ∧
        report.scoreMs = geometricMean ((successes (results.eraseIdx i)).map Result.meanMs) := by
  refine ⟨?_, ?_, ?_⟩
  · intro values left
    exact ⟨geometricMean_congr (counted_counted values).symm, geometricMean_eq values⟩
  · intro plan req p s station registered
    obtain ⟨n, hcalls, hmean⟩ := @meanMs_measure σ plan req p s station registered
    refine ⟨n, hcalls, fun hsuccess => ?_⟩
    intro times
    rw [hmean hsuccess]
    exact ⟨geometricMean_congr (counted_counted times).symm, geometricMean_eq_zero⟩
  · intro plan req s i r report results hr hmean
    refine ⟨exists_program_of_result hr, ?_⟩
    have hscore : report.scoreMs = score results := scoreMs_run plan req s
    rw [hscore, score_eraseIdx hr hmean, score]

/-- A kernel that takes no time at all, measured between two runs of a process that takes three milliseconds. -/
theorem nonpositive_skipped_between :
    let steady (time : Float) : Executor Nat :=
      { id := [], execute := fun _ n _ => { outcome := .ok { timeMs := time }, state := n + 1 } }
    let s : State Nat :=
      { stations := [{ kind := utf8 "direct", executor := steady 3, state := 0 },
          { kind := utf8 "inprocess", executor := steady 0, state := 0 }] }
    let p : Program := { name := utf8 "binary" }
    let q : Program := { name := utf8 "kernel", executor := utf8 "inprocess" }
    let req : Request := { programs := some [p, q, p] }
    let report := (run {} req s).report
    geometricMean [0, 3, -1] = geometricMean [3] ∧
      ∃ a b c, report.results.getD [] = [a, b, c] ∧ b.status = .success ∧ b.meanMs = 0 ∧
        report.scoreMs = geometricMean ((successes [a, c]).map Result.meanMs) := by
  intro steady s p q req report
  obtain ⟨hlist, hmeasure, hrun⟩ := @nonpositive_skipped Nat
  have hleft : ([0, 3, -1] : List Float).filter (fun v => ¬ v ≤ 0) = [3] := rfl
  refine ⟨hleft ▸ (hlist [0, 3, -1]).1, ?_⟩
  have hquiet : ∀ st ∈ s.stations, ∀ c x r, (st.executor.execute c x r).cancels = false := by
    simp only [s, List.forall_mem_cons]
    exact ⟨fun _ _ _ => rfl, fun _ _ _ => rfl, List.forall_mem_nil _⟩
  have hcalm : Undisturbed {} req s 0 [p, q, p] := ⟨not_cancelled_stateAfter rfl hquiet _, fun _ _ => rfl⟩
  have hresults := hcalm.run_eq.1
  rw [show req.listing [p, q, p] = req from rfl, resultsOf, resultsOf] at hresults
  -- the process that ran before it has left the station of the kernel as it was
  let station : Station Nat := { kind := utf8 "inprocess", executor := steady 0, state := 0 }
  have hstation : (measure {} req p s).2.1.station? q.kind = some station := station?_measure_of_ne (by decide) s
  generalize (measure {} req p s).2.1 = s₁ at hresults hstation
  have hends : EndsAt {} req q s₁ station 0 :=
    .inr (Int.le_trans (show (nanoseconds req.minDurationMs).toInt ≤ 0 by decide) (Int.natCast_nonneg _))
  have hsuccess : (measure {} req q s₁).1.status = .success := status_measure_of_first hstation ⟨rfl, rfl⟩ hends
  obtain ⟨n, -, hmean⟩ := hmeasure {} req q s₁ station hstation
  have hzero := (hmean hsuccess).2 fun t ht => by
    obtain ⟨i, sample, hsample, rfl⟩ := exists_sample_of_time ht
    cases hsample
    decide
  have hscore := (hrun {} req s 1 (measure {} req q s₁).1 (by rw [hresults]; rfl) (by rw [hzero]; decide)).2
  rw [hresults] at hscore
  exact ⟨_, _, _, hresults, hsuccess, hzero, hscore⟩

end Runner

end Stopwatch
