import Stopwatch.Host.Facility
import Stopwatch.Proofs.Independence

/-!
Runs at the built-in executors on the modelled host. No executor makes its caller give up, so a run that nobody interrupts
measures every program; and a process hands the host on with its directory and its variables as they were, so that only
files go from one program to the next.
-/

namespace Stopwatch

namespace Runner

section
variable {σ : Type} {plan : RunPlan} {req : Request}

/-- What every measurement keeps is kept by a run, if giving up keeps it. -/
theorem runPrograms_invariant {P : State σ → Prop} (hmeasure : ∀ p s, P s → P (measure plan req p s).2.1)
    (hgivenUp : ∀ s, P s → P { s with cancelled := true }) (programs : List Program) (number : Nat) (s : State σ)
    (g : Gathered) (h : P s) : P (runPrograms plan req programs number s g).2 := by
  induction programs generalizing number s g with
  | nil => exact h
  | cons p rest ih =>
    by_cases hup : givenUp plan s number = true
    · rw [runPrograms, if_pos (show (s.cancelled || plan.interrupted number) = true from hup)]
      exact ih _ _ _ (hgivenUp s h)
    · rw [runPrograms_cons plan req hup]
      exact ih _ _ _ (hmeasure p s h)

/-- Stations whose states have a property that every call of their executors keeps. -/
def Keeping (P : σ → Prop) (s : State σ) : Prop :=
  ∀ st ∈ s.stations, P st.state ∧ ∀ c x r, P x → P (st.executor.execute c x r).state

theorem Keeping.measure {P : σ → Prop} {s : State σ} (h : Keeping P s) (p : Program) :
    Keeping P (measure plan req p s).2.1 := by
  cases hstation : s.station? p.kind with
  | none =>
    rw [state_measure_of_none hstation]
    exact h
  | some station =>
    obtain ⟨hstate, hcalls⟩ := h station (List.mem_of_find?_eq_some hstation)
    have hvisit : P (visit plan req p s station).2.2.state :=
      Measure.repeatRuns_invariant (P := fun session => P session.state) (fun session => hcalls _ session.state _) _ _ _
        hstate
    rw [state_measure hstation]
    intro st hst
    obtain ⟨st', hst', rfl⟩ := List.mem_map.mp hst
    split
    · exact ⟨hvisit, (h st' hst').2⟩
    · exact h st' hst'

theorem Keeping.run {P : σ → Prop} {s : State σ} (h : Keeping P s) : Keeping P (run plan req s).state :=
  runPrograms_invariant (fun p _ hs => hs.measure p) (fun _ hs => hs) req.programList 0 s {} h

end

end Runner

/-- What every start of a process keeps of a host, a call keeps. -/
theorem Direct.call_keeps {σ : Type} {spawn : Spawn σ} {P : σ → Prop}
    (hspawn : ∀ m start t m', P m → spawn m start = .ok (t, m') → P m') (quit : Option Nat) {state : σ} (h : P state)
    (req : RunRequest) : P (call spawn quit state req).2.2 := by
  rw [call]
  split
  · exact h
  · dsimp only
    split
    · exact h
    · next hstarted => exact hspawn _ _ _ _ h hstarted

/-- A kernel never makes its caller give up. -/
theorem InProcess.not_cancels_call (duration : List Bytes → Nat) (quit : Option Nat) (s : State) (req : RunRequest) :
    (call duration quit s req).cancels = false := by
  rw [call]
  cases resultFor req with
  | error fault => rfl
  | ok result =>
    cases waitStrays quit s.now s.stray with
    | error waited => rfl
    | ok start =>
      dsimp only
      split
      · split <;> rfl
      · rfl

namespace Host

/-- Hosts that differ in their files only. -/
def Machine.Alike (m n : Machine) : Prop := n.directory = m.directory ∧ n.environment = m.environment

/-- A process leaves the directory and the variables of its host as they were. -/
theorem Machine.Alike.spawn {m n n' : Machine} {start : Direct.Start} {t : Direct.Timeline} (hn : m.Alike n)
    (h : n.spawn start = .ok (t, n')) : m.Alike n' := by
  simp only [Machine.spawn, bind, Except.bind] at h
  split at h
  · cases h
  · split at h
    · cases h
    · split at h
      · cases h
      · split at h
        · cases h
        · obtain ⟨-, rfl⟩ := Prod.mk.inj (Except.ok.inj h)
          exact hn

theorem Facility.keeping_stations (f : Facility) :
    Runner.Keeping (fun g : Facility => f.machine.Alike g.machine) { stations := f.stations } := by
  have hstart : f.machine.Alike f.machine := ⟨rfl, rfl⟩
  simp only [Runner.Keeping, stations, List.forall_mem_cons]
  refine ⟨⟨hstart, fun c x r h => ?_⟩, ⟨hstart, fun c x r h => h⟩, ⟨hstart, fun c x r h => h⟩, List.forall_mem_nil _⟩
  exact Direct.call_keeps (fun _ _ _ _ hm hspawn => hm.spawn hspawn) _ h r

/-- No call makes its caller give up. -/
theorem Facility.not_cancels (f : Facility) :
    ∀ st ∈ f.stations, ∀ c x r, (st.executor.execute c x r).cancels = false := by
  simp only [stations, List.forall_mem_cons]
  exact ⟨fun _ _ _ => rfl, fun _ _ _ => InProcess.not_cancels_call .., fun _ _ _ => rfl, List.forall_mem_nil _⟩

/-- A run at the built-in executors that nobody interrupts has a result for every program, in order, and at its end the
hosts differ from the first one in their files only. -/
theorem Facility.run_stations (f : Facility) {plan : RunPlan} (hcalm : ∀ number, plan.interrupted number = false)
    (req : Request) :
    let run := Runner.run plan req { stations := f.stations }
    (run.report.results.getD []).map Result.program = req.programList.map Program.name ∧
      run.state.cancelled = false ∧ ∀ st ∈ run.state.stations, f.machine.Alike st.state.machine := by
  intro run
  have hundisturbed : Runner.Undisturbed plan req { stations := f.stations } 0 req.programList :=
    ⟨Runner.not_cancelled_stateAfter rfl f.not_cancels _, fun _ _ => hcalm _⟩
  obtain ⟨hresults, hstate⟩ := hundisturbed.run_programList
  refine ⟨?_, ?_, fun st hst => (f.keeping_stations.run st hst).1⟩
  · rw [hresults]
    exact (Runner.names_resultsOf plan req _ _).1
  · rw [hstate]
    exact hundisturbed.inside

end Host

end Stopwatch
