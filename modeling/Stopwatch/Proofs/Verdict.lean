import Stopwatch.CommandLine.Session
import Stopwatch.Proofs.Independence
import Stopwatch.Proofs.Requests

/-!
The verdict of the command that measures here. It succeeds exactly if there was something to measure and every program
was measured with success; a program that was left out because the caller gave up, or that has no executor, makes it
fail like one that went wrong.
-/

namespace Stopwatch.Runner

/-! ### Reports without failures -/

section
variable {σ : Type} (plan : RunPlan) (req : Request)

/-- The program with a number was measured with success: the caller had not given up when it came, and its measurement, in
the state that the programs before it left, succeeded. -/
def MeasuredWell (s : State σ) (number : Nat) (p : Program) : Prop :=
  givenUp plan (stateAfter plan req s (req.programList.take number)) number = false ∧
    (measure plan req p (stateAfter plan req s (req.programList.take number))).1.status = .success

variable {plan req} in
/-- A first run that is accepted and takes long enough is all that a success needs. -/
theorem status_measure_of_first {p : Program} {s : State σ} {station : Station σ}
    (registered : s.station? p.kind = some station)
    (accepted : Measure.Accepted p.expectOutput (outcome plan req p s station 0))
    (ends : EndsAt plan req p s station 0) : (measure plan req p s).1.status = .success := by
  have hnone : ∀ i < 0, Measure.Accepted p.expectOutput (outcome plan req p s station i) :=
    fun i hi => absurd hi (Nat.not_lt_zero i)
  rw [(measure_eq registered (by decide) (fun i hi => absurd hi (Nat.not_lt_zero i)) (.inl ends)).1,
    conclude_accepted hnone accepted, status_reference_eq_success_iff]
  exact accepted

variable {plan req} in
theorem MeasuredWell.of_first {s : State σ} {number : Nat} {p : Program} {station : Station σ}
    (hup : givenUp plan (stateAfter plan req s (req.programList.take number)) number = false)
    (registered : (stateAfter plan req s (req.programList.take number)).station? p.kind = some station)
    (accepted : Measure.Accepted p.expectOutput
      (outcome plan req p (stateAfter plan req s (req.programList.take number)) station 0))
    (ends : EndsAt plan req p (stateAfter plan req s (req.programList.take number)) station 0) :
    MeasuredWell plan req s number p :=
  ⟨hup, status_measure_of_first registered accepted ends⟩

/-- The result at a place is that of its program in the state that the programs before it left. -/
theorem getElem?_resultsOf (s : State σ) (programs : List Program) (i : Nat) :
    (resultsOf plan req s programs)[i]? =
      programs[i]?.map fun p => (measure plan req p (stateAfter plan req s (programs.take i))).1 := by
  induction programs generalizing s i with
  | nil => rfl
  | cons p rest ih =>
    cases i with
    | zero => rfl
    | succ i =>
      rw [resultsOf, List.getElem?_cons_succ, ih, List.getElem?_cons_succ]
      rfl

theorem troubled_eq_nil_iff (results : List Result) : troubled results = [] ↔ ∀ r ∈ results, r.status = .success := by
  simp [troubled]

/-- A report names no failures exactly if every program of the request was measured with success. -/
theorem failed_run_eq_nil_iff (s : State σ) :
    (run plan req s).report.failed.getD [] = [] ↔
      ∀ i p, req.programList[i]? = some p → MeasuredWell plan req s i p := by
  obtain ⟨-, hfailed, -⟩ := runPrograms_spec plan req req.programList 0 s {}
  have hm := measuredCount_le plan req req.programList 0 s
  have hbefore := not_givenUp_of_lt plan req req.programList 0 s
  have hat := givenUp_measuredCount plan req req.programList 0 s
  simp only [Nat.zero_add] at hbefore hat
  generalize measuredCount plan req req.programList 0 s = m at *
  have hreport : (run plan req s).report.failed.getD [] =
      troubled (resultsOf plan req s (req.programList.take m)) ++ (req.programList.drop m).map Program.name := by
    simp only [run, hfailed, List.append_nil, List.reverse_reverse, getD_someIfAny]
  rw [hreport, List.append_eq_nil_iff, troubled_eq_nil_iff, List.map_eq_nil_iff, List.drop_eq_nil_iff]
  constructor
  · rintro ⟨hsuccess, hall⟩ i p hp
    rw [List.take_of_length_le hall] at hsuccess
    refine ⟨hbefore i ?_, hsuccess _ ?_⟩
    · exact Nat.lt_of_lt_of_le (List.getElem?_eq_some_iff.mp hp).1 hall
    · refine List.mem_of_getElem? (i := i) ?_
      rw [getElem?_resultsOf, hp]; rfl
  · intro hwell
    -- the first program that was left out would have come when the caller had given up
    have hall : req.programList.length ≤ m := by
      by_contra hlt
      rw [Nat.not_le] at hlt
      have hup := hat hlt
      rw [(hwell m _ (List.getElem?_eq_getElem hlt)).1] at hup
      cases hup
    refine ⟨fun r hr => ?_, hall⟩
    rw [List.take_of_length_le hall] at hr
    obtain ⟨i, hi⟩ := List.mem_iff_getElem?.mp hr
    rw [getElem?_resultsOf] at hi
    obtain ⟨p, hp, rfl⟩ := Option.map_eq_some_iff.mp hi
    exact (hwell i p hp).2

end

end Stopwatch.Runner

namespace Stopwatch

/-! ### Printing the report -/

/-- An output that takes every write takes all pieces. -/
theorem Table.error_writeAll {ε : Type} {refuses : Nat → Option ε} (accepts : ∀ n, refuses n = none)
    (pieces : List Bytes) (w : Table.Written ε) : (Table.writeAll refuses pieces w).error = w.error := by
  induction pieces generalizing w with
  | nil => rfl
  | cons piece rest ih =>
    rw [Table.writeAll, accepts]
    exact ih _

namespace CommandLine

variable {σ : Type}

theorem failure_print {c : Console σ} (accepts : ∀ n, c.refuses n = none) (report : Report) (lines : List Bytes)
    (troubles : List Result) :
    (c.print report lines troubles).failure = if report.failed.getD [] = [] then none else some .programs := by
  have hwritten : (Table.write c.refuses report).error = none := Table.error_writeAll accepts _ _
  by_cases hnil : report.failed.getD [] = []
  · simp [Console.print, hwritten, hasFailed, hnil]
  · simp [Console.print, hwritten, hasFailed, hnil]

/-- The command comes down to its request once that is there and nothing is published. -/
theorem run_eq_runRequest {c : Console σ} {p : Flags.Parsed} {s : Settings} {req : Request}
    (loaded : c.settings p = .ok s) (chosen : c.request s p.words = .ok req) (unpublished : publishes p = false) :
    run c p = runRequest c s req none := by
  simp only [run, loaded, unpublished, bind, Except.bind, chosen]
  rfl

theorem Console.request_eq_ok {c : Console σ} {s : Settings} {names : List Bytes} {req : Request}
    (h : c.request s names = .ok req) : s.bench.request c.moment names = (req, none) := by
  rw [Console.request] at h
  split at h
  · next hrequest =>
    cases h
    exact hrequest
  · cases h

theorem Console.programList_ne_nil_of_settings {c : Console σ} {p : Flags.Parsed} {s : Settings}
    (loaded : c.settings p = .ok s) : s.bench.programList ≠ [] := by
  simp only [Console.settings] at loaded
  generalize hload : Settings.load _ _ _ _ = loading at loaded
  cases loading with
  | error e => cases loaded
  | ok s' =>
    cases loaded
    exact Settings.programList_ne_nil_of_load hload

/-- A request that the command line can make has programs. -/
theorem programList_ne_nil {c : Console σ} {p : Flags.Parsed} {s : Settings} {names : List Bytes} {req : Request}
    (loaded : c.settings p = .ok s) (chosen : c.request s names = .ok req) : req.programList ≠ [] :=
  BenchSettings.programList_request_ne_nil (Console.programList_ne_nil_of_settings loaded) (Console.request_eq_ok chosen)

/-- The command that measures here, for settings that could be loaded and names that are known, without publishing and
with an output that takes every write. It succeeds exactly if the request has a program and every program of it was
measured with success, and it fails with the message that programs failed in every other case. -/
theorem run_verdict (c : Console σ) (p : Flags.Parsed) (s : Settings) (req : Request)
    (loaded : c.settings p = .ok s) (chosen : c.request s p.words = .ok req) (unpublished : publishes p = false)
    (accepts : ∀ n, c.refuses n = none) :
    let plan := planOf s.bench.workDir c.interrupted none
    ((run c p).failure = none ↔ req.programList ≠ [] ∧
        ∀ i q, req.programList[i]? = some q → Runner.MeasuredWell plan req { stations := c.stations } i q) ∧
      ((run c p).failure ≠ none → (run c p).failure = some .programs) := by
  intro plan
  have hprograms := programList_ne_nil loaded chosen
  have hfailure : (run c p).failure =
      if (Runner.run plan req { stations := c.stations }).report.failed.getD [] = [] then none else some .programs := by
    rw [run_eq_runRequest loaded chosen unpublished, runRequest, failure_print accepts]
  have hiff := Runner.failed_run_eq_nil_iff plan req { stations := c.stations }
  rw [hfailure]
  split
  · next hnil => exact ⟨⟨fun _ => ⟨hprograms, hiff.mp hnil⟩, fun _ => rfl⟩, fun h => absurd rfl h⟩
  · next hne =>
    exact ⟨⟨nofun, fun h => absurd (hiff.mpr h.2) hne⟩, fun _ => rfl⟩

/-- Both default programs, at executors that take a second and print the answer; the same where the caller gives up before
the second program, and where the first has no executor. -/
theorem run_verdict_several :
    let answer : Except Fault Sample := .ok { stdout := utf8 "39088169\n" }
    let station (kind : Bytes) : Station Nat :=
      { kind, executor := Measure.tape (fun _ => answer) fun i => 1000000000 * (i + 1), state := 0 }
    let both := [station (utf8 "inprocess"), station (utf8 "direct")]
    let p : Flags.Parsed := { words := [utf8 "fib/inprocess", utf8 "fib/binary"] }
    (run { stations := both } p).failure = none ∧
      (run { stations := both, interrupted := fun number => number == 1 } p).failure = some .programs ∧
      (run { stations := both.tail } p).failure = some .programs := by
  intro answer station both p
  let req : Request :=
    { id := utf8 "bench-0", programs := some defaultPrograms, minDurationMs := 1000, timeLimitMs := 10000 }
  let c (stations : List (Station Nat)) (interrupted : Nat → Bool) : Console Nat := { stations, interrupted }
  let plan (interrupted : Nat → Bool) : RunPlan := planOf Settings.unchanged.bench.workDir interrupted none
  have hloaded : ∀ stations interrupted, (c stations interrupted).settings p = .ok .unchanged := by
    intro stations interrupted
    change (Settings.load .builtIn {} [[]] []).mapError Failure.settings = _
    rw [Settings.load_unchanged]
    rfl
  have hverdict := fun stations interrupted =>
    run_verdict (c stations interrupted) p .unchanged req (hloaded stations interrupted) rfl rfl fun _ => rfl
  have hfails : ∀ stations interrupted i q, req.programList[i]? = some q →
      ¬ Runner.MeasuredWell (plan interrupted) req { stations } i q →
      (run (c stations interrupted) p).failure = some .programs := by
    intro stations interrupted i q hq hill
    obtain ⟨hiff, hprograms⟩ := hverdict stations interrupted
    exact hprograms fun hnone => hill ((hiff.mp hnone).2 i q hq)
  refine ⟨(hverdict both fun _ => false).1.mpr ⟨List.cons_ne_nil _ _, ?_⟩, hfails both _ 1 _ rfl ?_,
    hfails both.tail _ 0 _ rfl ?_⟩
  · have hquiet : ∀ st ∈ both, ∀ c x r, (st.executor.execute c x r).cancels = false := by
      simp only [both, List.forall_mem_cons]
      exact ⟨fun _ _ _ => rfl, fun _ _ _ => rfl, List.forall_mem_nil _⟩
    have hfirst : Runner.MeasuredWell (plan fun _ => false) req { stations := both } 0 defaultPrograms[0] :=
      .of_first rfl (show _ = some (station (utf8 "inprocess")) from rfl) (by decide) (by decide)
    have hsecond : Runner.MeasuredWell (plan fun _ => false) req { stations := both } 1 defaultPrograms[1] := by
      rw [Runner.MeasuredWell]
      -- only two facts about the state that the first program left are used, so that no measurement is unfolded
      generalize hafter : Runner.stateAfter (plan fun _ => false) req { stations := both } (req.programList.take 1) = t
      have hcancelled : t.cancelled = false := hafter ▸ Runner.not_cancelled_stateAfter rfl hquiet _
      have hstation : t.station? (utf8 "direct") = some (station (utf8 "direct")) :=
        hafter ▸ Runner.station?_measure_of_ne (by decide) _
      have hsession : t.session (station (utf8 "direct")) = { state := 0 } := by
        simp [Runner.State.session, hcancelled, station]
      refine ⟨by simp [Runner.givenUp, hcancelled, plan, planOf], Runner.status_measure_of_first hstation ?_ ?_⟩
      · rw [Runner.outcome, hsession]
        decide
      · rw [Runner.EndsAt, hsession]
        decide
    rintro (_ | _ | i) q hq
    · exact Option.some.inj hq ▸ hfirst
    · exact Option.some.inj hq ▸ hsecond
    · cases hq
  · intro hwell
    have hup := hwell.1
    simp [Runner.givenUp, plan, planOf] at hup
  · intro hwell
    cases hwell.2

end CommandLine

end Stopwatch
