import Stopwatch.Proofs.Measurement

/-!
What a run does with the programs of a request. The first of them, up to the one before which the caller has given up,
are measured one after the other, and the others count as failed, so that the report has every program exactly once.
-/

namespace Stopwatch.Runner

open Stopwatch.Measure

/-! ### Programs one after the other -/

section
variable {σ : Type} (plan : RunPlan) (req : Request)

/-- The state after measuring programs one after the other. -/
def stateAfter (s : State σ) : List Program → State σ
  | [] => s
  | p :: rest => stateAfter (measure plan req p s).2.1 rest

/-- The results of measuring programs one after the other. -/
def resultsOf (s : State σ) : List Program → List Result
  | [] => []
  | p :: rest => (measure plan req p s).1 :: resultsOf (measure plan req p s).2.1 rest

/-- Whether the caller has given up when the program with a number comes. -/
def givenUp (s : State σ) (number : Nat) : Bool := s.cancelled || plan.interrupted number

/-- How many programs come before the caller has given up; the number is that of the first program. -/
def measuredCount : List Program → Nat → State σ → Nat
  | [], _, _ => 0
  | p :: rest, number, s =>
    if givenUp plan s number then 0 else measuredCount rest (number + 1) (measure plan req p s).2.1 + 1

/-- What others see of a program that was run a number of times. -/
def programActs (p : Program) (result : Result) (runs : Nat) : List Event :=
  List.replicate runs (.called p.kind (runRequest plan.workDir req p)) ++
    if plan.publisher.isSome then [.published result] else []

/-- The names in results that are no successes. -/
def troubled (results : List Result) : List Bytes := (results.filter fun r => r.status ≠ .success).map Result.program

theorem troubled_cons (r : Result) (rest : List Result) : troubled (r :: rest) = troubled [r] ++ troubled rest := by
  simp [troubled, List.filter_cons]
  split <;> rfl

/-- The successes among results. -/
def successes (results : List Result) : List Result := results.filter fun r => r.status = .success

/-- The score of results: the geometric mean of the means of the successful ones. -/
def score (results : List Result) : Float := Stats.geometricMean ((successes results).map Result.meanMs)

theorem measuredCount_le : ∀ (programs : List Program) (number : Nat) (s : State σ),
    measuredCount plan req programs number s ≤ programs.length
  | [], _, _ => Nat.le_refl 0
  | p :: rest, number, s => by
    rw [measuredCount]
    split
    · exact Nat.zero_le _
    · exact Nat.succ_le_succ (measuredCount_le rest (number + 1) _)

/-- No program that is measured comes after the caller has given up. -/
theorem not_givenUp_of_lt : ∀ (programs : List Program) (number : Nat) (s : State σ) (i : Nat),
    i < measuredCount plan req programs number s →
    givenUp plan (stateAfter plan req s (programs.take i)) (number + i) = false
  | [], _, _, _, h => absurd h (Nat.not_lt_zero _)
  | p :: rest, number, s, i, h => by
    rw [measuredCount] at h
    split at h
    · exact absurd h (Nat.not_lt_zero _)
    · next hup =>
      cases i with
      | zero => simpa [stateAfter] using hup
      | succ i =>
        have hrec := not_givenUp_of_lt rest (number + 1) _ i (Nat.lt_of_succ_lt_succ h)
        rwa [show number + 1 + i = number + (i + 1) by omega] at hrec

/-- The first program that is not measured comes when the caller has given up. -/
theorem givenUp_measuredCount : ∀ (programs : List Program) (number : Nat) (s : State σ),
    measuredCount plan req programs number s < programs.length →
    givenUp plan (stateAfter plan req s (programs.take (measuredCount plan req programs number s)))
      (number + measuredCount plan req programs number s) = true
  | [], _, _, h => absurd h (Nat.not_lt_zero _)
  | p :: rest, number, s, h => by
    by_cases hup : givenUp plan s number = true
    · rw [measuredCount, if_pos hup]; exact hup
    · rw [measuredCount, if_neg hup] at h ⊢
      have hrec := givenUp_measuredCount rest (number + 1) _ (Nat.lt_of_succ_lt_succ h)
      rw [List.take_succ_cons, stateAfter]
      rwa [show ∀ k, number + 1 + k = number + (k + 1) by omega] at hrec

@[simp] theorem length_resultsOf : ∀ (s : State σ) (programs : List Program),
    (resultsOf plan req s programs).length = programs.length
  | _, [] => rfl
  | s, p :: rest => by rw [resultsOf, List.length_cons, length_resultsOf _ rest, List.length_cons]

/-! ### One program -/

/-- A result carries the id of the request and the name of the program. -/
theorem measure_names (p : Program) (s : State σ) :
    (measure plan req p s).1.requestId = req.id ∧ (measure plan req p s).1.program = p.name := by
  have hconclude : ∀ (e : Ending) (g : Progress), (conclude req.id p.name e g).requestId = req.id ∧
      (conclude req.id p.name e g).program = p.name := by
    intro e g
    rw [conclude]
    split <;> exact ⟨rfl, rfl⟩
  rw [measure]
  split
  · exact ⟨rfl, rfl⟩
  · exact hconclude _ _

/-- What others see of a measurement are calls for its program. -/
theorem acts_measure (p : Program) (s : State σ) : ∃ runs, (measure plan req p s).2.2.filter Event.isAct =
    List.replicate runs (.called p.kind (runRequest plan.workDir req p)) := by
  cases hstation : s.station? p.kind with
  | none => exact ⟨0, by rw [measure, hstation]; rfl⟩
  | some station =>
    obtain ⟨n, -, -, -, hcalls⟩ := exists_last_run hstation
    exact ⟨n + 1, hcalls⟩

theorem acts_publish (number : Nat) (p : Program) (r : Result) :
    (publish plan number p r).filter Event.isAct = if plan.publisher.isSome then [.published r] else [] := by
  rw [publish]
  cases hp : plan.publisher with
  | none => rfl
  | some failure =>
    simp only [List.filter_cons, Event.isAct, filter_isAct_log]
    rfl

/-! ### The whole run -/

/-- What others saw so far. -/
def Gathered.acts (g : Gathered) : List Event := g.journal.reverse.flatten.filter Event.isAct

theorem Gathered.acts_cons (results : List Result) (means : List Float) (failed : List Bytes) (events : List Event)
    (journal : List (List Event)) : Gathered.acts { results, means, failed, journal := events :: journal } =
      Gathered.acts { results, means, failed, journal } ++ events.filter Event.isAct := by
  simp [Gathered.acts]

/-- The acts of programs with their results and numbers of runs. -/
def allActs (programs : List Program) (results : List Result) (runs : List Nat) : List Event :=
  (programs.zip (results.zip runs)).flatMap fun (p, r, k) => programActs plan req p r k

/-- Once the caller has given up, every program counts as failed and nothing else happens. -/
theorem runPrograms_cancelled : ∀ (programs : List Program) (number : Nat) (s : State σ) (g : Gathered),
    s.cancelled = true →
    (runPrograms plan req programs number s g).1.results = g.results ∧
      (runPrograms plan req programs number s g).1.failed = (programs.map Program.name).reverse ++ g.failed ∧
      (runPrograms plan req programs number s g).1.acts = g.acts
  | [], _, _, _, _ => ⟨rfl, rfl, rfl⟩
  | p :: rest, number, s, g, h => by
    rw [runPrograms, if_pos (by rw [h]; rfl)]
    obtain ⟨hresults, hfailed, hacts⟩ := runPrograms_cancelled rest (number + 1) { s with cancelled := true } _ rfl
    refine ⟨hresults, ?_, ?_⟩
    · rw [hfailed]; simp
    · rw [hacts, Gathered.acts_cons]; simp [Event.log, Event.isAct, Gathered.acts]

/-- What is gathered after one more measured program. -/
def Gathered.add (g : Gathered) (p : Program) (s : State σ) : Gathered :=
  let result := (measure plan req p s).1
  { results := result :: g.results
    means := if result.status = .success then result.meanMs :: g.means else g.means
    failed := if result.status = .success then g.failed else p.name :: g.failed
    journal := ((measure plan req p s).2.2 ++ publish plan g.results.length p result ++
      [.log (resultLine req.id p result)]) :: g.journal }

theorem runPrograms_cons {p : Program} {rest : List Program} {number : Nat} {s : State σ} {g : Gathered}
    (h : ¬ givenUp plan s number = true) : runPrograms plan req (p :: rest) number s g =
      runPrograms plan req rest (number + 1) (measure plan req p s).2.1 (g.add plan req p s) := by
  rw [runPrograms, if_neg (show ¬ (s.cancelled || plan.interrupted number) = true from h)]
  rfl

theorem Gathered.failed_add (g : Gathered) (p : Program) (s : State σ) :
    (g.add plan req p s).failed = (troubled [(measure plan req p s).1]).reverse ++ g.failed := by
  rw [Gathered.add]
  by_cases hs : (measure plan req p s).1.status = .success
  · simp [troubled, hs]
  · simp [troubled, hs, (measure_names plan req p s).2]

theorem Gathered.acts_add (g : Gathered) (p : Program) (s : State σ) :
    ∃ runs, (g.add plan req p s).acts = g.acts ++ programActs plan req p (measure plan req p s).1 runs := by
  obtain ⟨runs, hruns⟩ := acts_measure plan req p s
  refine ⟨runs, ?_⟩
  rw [Gathered.add, Gathered.acts_cons, List.filter_append, List.filter_append, hruns, acts_publish, programActs]
  simp [Event.log, Event.isAct, Gathered.acts]

/-- The run lemma: the programs up to the one before which the caller has given up are measured in order. -/
theorem runPrograms_spec : ∀ (programs : List Program) (number : Nat) (s : State σ) (g : Gathered),
    (runPrograms plan req programs number s g).1.results =
        (resultsOf plan req s (programs.take (measuredCount plan req programs number s))).reverse ++ g.results ∧
      (runPrograms plan req programs number s g).1.failed =
        (troubled (resultsOf plan req s (programs.take (measuredCount plan req programs number s))) ++
          (programs.drop (measuredCount plan req programs number s)).map Program.name).reverse ++ g.failed ∧
      ∃ runs : List Nat, runs.length = measuredCount plan req programs number s ∧
        (runPrograms plan req programs number s g).1.acts = g.acts ++
          allActs plan req (programs.take (measuredCount plan req programs number s))
            (resultsOf plan req s (programs.take (measuredCount plan req programs number s))) runs
  | [], _, _, _ => ⟨rfl, rfl, [], rfl, by simp [runPrograms, allActs]⟩
  | p :: rest, number, s, g => by
    by_cases hup : givenUp plan s number = true
    · rw [measuredCount, if_pos hup, runPrograms, if_pos (show (s.cancelled || plan.interrupted number) = true from hup)]
      obtain ⟨hresults, hfailed, hacts⟩ :=
        runPrograms_cancelled plan req rest (number + 1) { s with cancelled := true } _ rfl
      refine ⟨hresults, ?_, [], rfl, ?_⟩
      · rw [hfailed]; simp [troubled, resultsOf]
      · rw [hacts, Gathered.acts_cons]; simp [Event.log, Event.isAct, Gathered.acts, allActs]
    · obtain ⟨hresults, hfailed, runs, hlength, hacts⟩ :=
        runPrograms_spec rest (number + 1) (measure plan req p s).2.1 (g.add plan req p s)
      obtain ⟨k, hk⟩ := g.acts_add plan req p s
      rw [measuredCount, if_neg hup, runPrograms_cons plan req hup, List.take_succ_cons, List.drop_succ_cons, resultsOf]
      refine ⟨?_, ?_, k :: runs, by rw [List.length_cons, hlength], ?_⟩
      · rw [hresults]; simp [Gathered.add]
      · rw [hfailed, Gathered.failed_add, troubled_cons _ (resultsOf ..)]; simp
      · rw [hacts, hk, List.append_assoc]; simp [allActs]

/-- The results of a report are those of the programs that were measured. -/
theorem results_report (s : State σ) : (run plan req s).report.results.getD [] =
    resultsOf plan req s (req.programList.take (measuredCount plan req req.programList 0 s)) := by
  simp only [run, (runPrograms_spec plan req req.programList 0 s {}).1, List.append_nil, List.reverse_reverse,
    getD_someIfAny]

/-- The means are those of the successes, at every moment of a run. -/
theorem means_runPrograms : ∀ (programs : List Program) (number : Nat) (s : State σ) (g : Gathered),
    g.means = (successes g.results).map Result.meanMs →
    (runPrograms plan req programs number s g).1.means =
      (successes (runPrograms plan req programs number s g).1.results).map Result.meanMs
  | [], _, _, _, h => h
  | p :: rest, number, s, g, h => by
    by_cases hup : givenUp plan s number = true
    · rw [runPrograms, if_pos (show (s.cancelled || plan.interrupted number) = true from hup)]
      exact means_runPrograms rest (number + 1) _ _ h
    · rw [runPrograms_cons plan req hup]
      refine means_runPrograms rest (number + 1) _ _ ?_
      rw [Gathered.add]
      by_cases hs : (measure plan req p s).1.status = .success
      · simp [successes, hs, h]
      · simp [successes, hs, h]

/-- The score of a report is that of its results. -/
theorem scoreMs_run (s : State σ) :
    (run plan req s).report.scoreMs = score ((run plan req s).report.results.getD []) := by
  have hmeans := means_runPrograms plan req req.programList 0 s {} rfl
  simp only [run, hmeans, getD_someIfAny, score, successes, List.filter_reverse, List.map_reverse]

/-- The lines around a run are no acts. -/
theorem acts_run (s : State σ) : (run plan req s).journal.filter Event.isAct =
    (runPrograms plan req req.programList 0 s {}).1.acts := by
  simp [run, Event.log, Event.isAct, Gathered.acts]

/-- The results of programs carry their names and the id of the request. -/
theorem names_resultsOf : ∀ (s : State σ) (programs : List Program),
    (resultsOf plan req s programs).map Result.program = programs.map Program.name ∧
      ∀ r ∈ resultsOf plan req s programs, r.requestId = req.id
  | _, [] => ⟨rfl, fun _ h => absurd h List.not_mem_nil⟩
  | s, p :: rest => by
    obtain ⟨hid, hname⟩ := measure_names plan req p s
    obtain ⟨hnames, hids⟩ := names_resultsOf (measure plan req p s).2.1 rest
    refine ⟨?_, ?_⟩
    · rw [resultsOf, List.map_cons, hname, hnames, List.map_cons]
    · intro r hr
      rcases List.mem_cons.mp hr with rfl | hr
      · exact hid
      · exact hids r hr

end

/-- A result is a success or it is not. -/
theorem length_successes_add_troubled (results : List Result) :
    (successes results).length + (troubled results).length = results.length := by
  rw [successes, troubled, List.length_map, ← List.countP_eq_length_filter, ← List.countP_eq_length_filter,
    List.length_eq_countP_add_countP fun r => decide (r.status = .success)]
  simp

/-- A run accounts for every program of a request exactly once. The first `m` programs are measured one after the other,
each in the state that those before it left, where `m` is the number of the first program that comes when the caller has
given up; there is no call and no publication beyond those for their runs and results. The report has their results, and
names as failed those of them that are no successes and then all remaining programs. -/
theorem run_accounts {σ : Type} (plan : RunPlan) (req : Request) (s : State σ) :
    ∃ m ≤ req.programList.length, ∃ (results : List Result) (failed : List Bytes) (runs : List Nat),
      (run plan req s).report.results = someIfAny results ∧
      (run plan req s).report.failed = someIfAny failed ∧
      (∀ i < m, givenUp plan (stateAfter plan req s (req.programList.take i)) i = false) ∧
      (m < req.programList.length → givenUp plan (stateAfter plan req s (req.programList.take m)) m = true) ∧
      results = resultsOf plan req s (req.programList.take m) ∧
      results.length = m ∧
      results.map Result.program = (req.programList.take m).map Program.name ∧
      (∀ r ∈ results, r.requestId = req.id) ∧
      runs.length = m ∧
      (run plan req s).journal.filter Event.isAct = allActs plan req (req.programList.take m) results runs ∧
      failed = troubled results ++ (req.programList.drop m).map Program.name ∧
      (successes results).length + failed.length = req.programList.length ∧
      (run plan req s).report.scoreMs = Stats.geometricMean ((successes results).map Result.meanMs) := by
  obtain ⟨hresults, hfailed, runs, hlength, hacts⟩ := runPrograms_spec plan req req.programList 0 s {}
  have hm := measuredCount_le plan req req.programList 0 s
  have hbefore := not_givenUp_of_lt plan req req.programList 0 s
  have hat := givenUp_measuredCount plan req req.programList 0 s
  have hcount := length_resultsOf plan req s (req.programList.take (measuredCount plan req req.programList 0 s))
  have hnames := names_resultsOf plan req s (req.programList.take (measuredCount plan req req.programList 0 s))
  have hsum := length_successes_add_troubled
    (resultsOf plan req s (req.programList.take (measuredCount plan req req.programList 0 s)))
  simp only [Nat.zero_add] at hbefore hat
  generalize measuredCount plan req req.programList 0 s = m at *
  rw [List.length_take, Nat.min_eq_left hm] at hcount
  simp only [List.append_nil] at hresults hfailed
  refine ⟨m, hm, _, _, runs, ?_, ?_, hbefore, hat, rfl, hcount, hnames.1, hnames.2, hlength, ?_, rfl, ?_, ?_⟩
  · rw [run]; simp only [hresults, List.reverse_reverse]
  · rw [run]; simp only [hfailed, List.reverse_reverse]
  · rw [acts_run, hacts]; rfl
  · rw [List.length_append, List.length_map, List.length_drop]
    omega
  · rw [scoreMs_run, score, run]
    simp only [hresults, List.reverse_reverse, getD_someIfAny]

end Stopwatch.Runner
