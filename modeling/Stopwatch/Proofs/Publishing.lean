import Stopwatch.Proofs.Accounting

/-!
Publishing and measuring. Two runs that differ in their publishers only are compared program by program: they measure
the same and end with the same report. A run with a publisher publishes the results of the report in order, each between
the calls for its own program and those for the next.
-/

namespace Stopwatch.Runner

/-! ### Runs that differ in their publishers -/

/-- What was gathered with one publisher is what was gathered with another: the same results and failures after the same
calls. -/
structure Gathered.Alike (g h : Gathered) : Prop where
  results : g.results = h.results
  means : g.means = h.means
  failed : g.failed = h.failed
  calls : g.journal.reverse.flatten.filterMap Event.call? = h.journal.reverse.flatten.filterMap Event.call?

section
variable {σ : Type} (plan : RunPlan) (first second : Option (Nat → Result → Option Bytes)) (req : Request)

/-- Of the plan, a measurement looks at the directory only. -/
theorem measure_congr {plan plan' : RunPlan} (h : plan.workDir = plan'.workDir) (p : Program) (s : State σ) :
    measure plan req p s = measure plan' req p s := by
  simp only [measure, h]

theorem measure_publisher (p : Program) (s : State σ) :
    measure { plan with publisher := first } req p s = measure plan req p s := by
  apply measure_congr
  rfl

/-- Publishing calls no executor. -/
theorem calls_publish (number : Nat) (p : Program) (r : Result) :
    (publish plan number p r).filterMap Event.call? = [] := by
  rw [publish]
  cases plan.publisher with
  | none => rfl
  | some failure => cases hf : failure number r <;> simp [hf, Event.call?, Event.log]

theorem Gathered.Alike.cancelled {g h : Gathered} (alike : g.Alike h) (name line : Bytes) :
    Gathered.Alike { g with failed := name :: g.failed, journal := [.log line] :: g.journal }
      { h with failed := name :: h.failed, journal := [.log line] :: h.journal } := by
  refine ⟨alike.results, alike.means, congrArg (name :: ·) alike.failed, ?_⟩
  simpa [Event.log, Event.call?] using alike.calls

/-- The step: one more measured program. -/
theorem Gathered.Alike.add {g h : Gathered} (alike : g.Alike h) (p : Program) (s : State σ) :
    (g.add { plan with publisher := first } req p s).Alike (h.add { plan with publisher := second } req p s) := by
  simp only [Gathered.add, measure_publisher]
  refine ⟨congrArg ((measure plan req p s).1 :: ·) alike.results, ?_, ?_, ?_⟩
  · simp only [alike.means]
  · simp only [alike.failed]
  · have hlog : ∀ line, Event.call? (.log line) = none := fun _ => rfl
    simp [List.filterMap_append, calls_publish, alike.calls, hlog]

theorem runPrograms_cons_publisher {p : Program} {rest : List Program} {number : Nat} {s : State σ} {g : Gathered}
    (h : ¬ givenUp plan s number = true) : runPrograms { plan with publisher := first } req (p :: rest) number s g =
      runPrograms { plan with publisher := first } req rest (number + 1) (measure plan req p s).2.1
        (g.add { plan with publisher := first } req p s) := by
  have hup : ¬ givenUp { plan with publisher := first } s number = true := h
  rw [runPrograms_cons { plan with publisher := first } req hup, measure_publisher]

/-- The run lemma: programs that are run with one publisher are run alike with the other, and leave the same state. -/
theorem runPrograms_alike : ∀ (programs : List Program) (number : Nat) (s : State σ) (g h : Gathered), g.Alike h →
    (runPrograms { plan with publisher := first } req programs number s g).1.Alike
        (runPrograms { plan with publisher := second } req programs number s h).1 ∧
      (runPrograms { plan with publisher := first } req programs number s g).2 =
        (runPrograms { plan with publisher := second } req programs number s h).2
  | [], _, _, _, _, alike => ⟨alike, rfl⟩
  | p :: rest, number, s, g, h, alike => by
    by_cases hup : givenUp plan s number = true
    · have hup' : (s.cancelled || plan.interrupted number) = true := hup
      rw [runPrograms, runPrograms, if_pos hup', if_pos hup']
      exact runPrograms_alike rest (number + 1) _ _ _ (alike.cancelled _ _)
    · rw [runPrograms_cons_publisher plan first req hup, runPrograms_cons_publisher plan second req hup]
      exact runPrograms_alike rest (number + 1) _ _ _ (alike.add plan first second req p s)

end

/-! ### What a publisher sees -/

/-- Lines of the log hold no results. -/
theorem results_filter_isAct (journal : List Event) :
    (journal.filter Event.isAct).filterMap Event.result? = journal.filterMap Event.result? := by
  rw [List.filterMap_filter]
  congr 1
  funext e
  cases e <;> rfl

/-- The results among the acts of programs are all of them with a publisher, and none without. -/
theorem results_allActs (plan : RunPlan) (req : Request) : ∀ (programs : List Program) (results : List Result)
    (runs : List Nat), results.length = programs.length → runs.length = programs.length →
    (allActs plan req programs results runs).filterMap Event.result? = if plan.publisher.isSome then results else []
  | [], [], _, _, _ => by simp [allActs]
  | p :: programs, r :: results, k :: runs, hresults, hruns => by
    have hrec := results_allActs plan req programs results runs (by simpa using hresults) (by simpa using hruns)
    have hcalls : (List.replicate k (Event.called p.kind (runRequest plan.workDir req p))).filterMap Event.result? =
        [] := by
      rw [List.filterMap_eq_nil_iff]
      intro e he
      rw [List.eq_of_mem_replicate he]; rfl
    have hsplit : allActs plan req (p :: programs) (r :: results) (k :: runs) =
        programActs plan req p r k ++ allActs plan req programs results runs := rfl
    rw [hsplit, List.filterMap_append, hrec, programActs, List.filterMap_append, hcalls]
    split <;> rfl

/-- The lines around a run hold no calls. -/
theorem calls_run {σ : Type} (plan : RunPlan) (req : Request) (s : State σ) :
    (run plan req s).journal.filterMap Event.call? =
      (runPrograms plan req req.programList 0 s {}).1.journal.reverse.flatten.filterMap Event.call? := by
  have hlog : ∀ line, Event.call? (.log line) = none := fun _ => rfl
  simp [run, List.filterMap_append, hlog]

/-- The acts of a run are those of its first programs, one for each result of the report. -/
theorem acts_run_eq {σ : Type} (plan : RunPlan) (req : Request) (s : State σ) :
    let results := (run plan req s).report.results.getD []
    ∃ runs : List Nat, runs.length = results.length ∧ results.length ≤ req.programList.length ∧
      (run plan req s).journal.filter Event.isAct =
        allActs plan req (req.programList.take results.length) results runs := by
  obtain ⟨-, -, runs, hlength, hacts⟩ := runPrograms_spec plan req req.programList 0 s {}
  have hm := measuredCount_le plan req req.programList 0 s
  have hreport := results_report plan req s
  generalize measuredCount plan req req.programList 0 s = m at *
  have hcount : (resultsOf plan req s (req.programList.take m)).length = m := by
    rw [length_resultsOf, List.length_take, Nat.min_eq_left hm]
  refine ⟨runs, ?_, ?_, ?_⟩
  · rw [hreport, hcount, hlength]
  · rw [hreport, hcount]; exact hm
  · rw [acts_run, hacts, hreport, hcount]; rfl

/-- What a run publishes are the results of its report, if it publishes at all. -/
theorem results_run {σ : Type} (plan : RunPlan) (req : Request) (s : State σ) :
    (run plan req s).journal.filterMap Event.result? =
      if plan.publisher.isSome then (run plan req s).report.results.getD [] else [] := by
  obtain ⟨runs, hruns, hle, hacts⟩ := acts_run_eq plan req s
  have hcount : (req.programList.take ((run plan req s).report.results.getD []).length).length =
      ((run plan req s).report.results.getD []).length := by
    rw [List.length_take, Nat.min_eq_left hle]
  rw [← results_filter_isAct, hacts, results_allActs plan req _ _ _ hcount.symm (hruns.trans hcount.symm)]

/-- Publishing is of no consequence to measuring. With any publisher, whichever of its publications fail, a run gives the
same report, leaves the same state and makes the same calls in the same order as without one, where nothing is published.
It publishes exactly the results of the report in order, and each of them right after the calls for its own program, before
any call for the next. -/
theorem publishing_unseen {σ : Type} (plan : RunPlan) (failure : Nat → Result → Option Bytes) (req : Request)
    (s : State σ) :
    let silent := run { plan with publisher := none } req s
    let heard := run { plan with publisher := some failure } req s
    let results := heard.report.results.getD []
    heard.report = silent.report ∧
      heard.state = silent.state ∧
      heard.journal.filterMap Event.call? = silent.journal.filterMap Event.call? ∧
      silent.journal.filterMap Event.result? = [] ∧
      heard.journal.filterMap Event.result? = results ∧
      ∃ runs : List Nat, runs.length = results.length ∧ results.length ≤ req.programList.length ∧
        heard.journal.filter Event.isAct =
          (req.programList.zip (results.zip runs)).flatMap fun (p, r, k) =>
            List.replicate k (.called p.kind (runRequest plan.workDir req p)) ++ [.published r] := by
  intro silent heard results
  obtain ⟨alike, hstate⟩ :=
    runPrograms_alike plan (some failure) none req req.programList 0 s {} {} ⟨rfl, rfl, rfl, rfl⟩
  have hreport : heard.report = silent.report := by
    simp only [heard, silent, run, alike.results, alike.means, alike.failed]
  refine ⟨hreport, hstate, ?_, ?_, ?_, ?_⟩
  · rw [calls_run, calls_run, alike.calls]
  · exact results_run { plan with publisher := none } req s
  · exact results_run { plan with publisher := some failure } req s
  · obtain ⟨runs, hruns, hle, hacts⟩ := acts_run_eq { plan with publisher := some failure } req s
    refine ⟨runs, hruns, hle, ?_⟩
    have hpairs : (results.zip runs).length = results.length := by rw [List.length_zip, hruns, Nat.min_self]
    have hzip : (req.programList.take results.length).zip (results.zip runs) =
        req.programList.zip (results.zip runs) := by
      conv_rhs => rw [List.zip_eq_zip_take_min, hpairs, Nat.min_eq_right hle]
      rw [List.take_of_length_le (Nat.le_of_eq hpairs)]
    rw [hacts, allActs, hzip]
    rfl

end Stopwatch.Runner
