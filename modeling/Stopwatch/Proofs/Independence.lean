import Stopwatch.Proofs.Accounting

/-!
Programs at different stations. A measurement looks at the station of its program only and changes no other one, so two
neighbours at different stations can change places as long as nobody gives up. And a run of programs one after the other
is the run of the first of them, continued by a run of the others.
-/

namespace Stopwatch

/-- The request for other programs. -/
def Request.listing (req : Request) (programs : List Program) : Request := { req with programs := some programs }

@[simp] theorem Request.programList_listing (req : Request) (programs : List Program) :
    (req.listing programs).programList = programs := rfl

namespace Measure

section
variable {σ : Type} {ex : Executor σ} {req : RunRequest} {expected : Bytes} {least : Int}

/-- What every attempt keeps is kept by the loop. -/
theorem repeatRuns_invariant {P : Session σ → Prop} (step : ∀ s, P s → P (s.after req (s.attempt ex req))) :
    ∀ (budget : Nat) (s : Session σ) (p : Progress), P s → P (repeatRuns ex req expected least budget s p).2.2
  | 0, _, _, h => h
  | budget + 1, s, p, h => by
    rw [repeatRuns]
    dsimp only
    split
    · exact step s h
    · split
      · exact step s h
      · exact repeatRuns_invariant step budget _ _ (step s h)

/-- Giving up is never taken back. -/
theorem cancelled_repeatRuns {budget : Nat} {s : Session σ} {p : Progress} (h : s.cancelled = true) :
    (repeatRuns ex req expected least budget s p).2.2.cancelled = true := by
  refine repeatRuns_invariant (P := fun s => s.cancelled = true) ?_ budget s p h
  intro s hs
  simp [Session.after, hs]

/-- Nobody gives up at an executor where no call makes the caller give up. -/
theorem not_cancelled_repeatRuns (quiet : ∀ c x r, (ex.execute c x r).cancels = false) {budget : Nat} {s : Session σ}
    {p : Progress} (h : s.cancelled = false) : (repeatRuns ex req expected least budget s p).2.2.cancelled = false := by
  refine repeatRuns_invariant (P := fun s => s.cancelled = false) ?_ budget s p h
  intro s hs
  simp [Session.after, Session.attempt, hs, quiet]

end

end Measure

namespace Runner

open Stopwatch.Measure

/-! ### Stations -/

section Stations
variable {σ : Type} {kind other : Bytes}

theorem station?_setState_of_ne (h : kind ≠ other) (x : σ) (stations : List (Station σ)) :
    (setState kind x stations).find? (fun st => st.kind == other) = stations.find? fun st => st.kind == other := by
  induction stations with
  | nil => rfl
  | cons st rest ih =>
    rw [setState] at ih
    rw [setState, List.map_cons, List.find?_cons, List.find?_cons, ih]
    by_cases hk : st.kind = kind
    · have ho : (st.kind == other) = false := by simpa [hk] using h
      simp only [hk, beq_self_eq_true, if_true]
      rw [← hk, ho]
    · have hb : (st.kind == kind) = false := by simpa using hk
      simp only [hb, Bool.false_eq_true, if_false]

theorem setState_comm (h : kind ≠ other) (x y : σ) (stations : List (Station σ)) :
    setState kind x (setState other y stations) = setState other y (setState kind x stations) := by
  simp only [setState, List.map_map]
  refine List.map_congr_left fun st _ => ?_
  by_cases hk : st.kind = kind
  · simp [hk, h]
  · by_cases ho : st.kind = other
    · simp [ho, h.symm]
    · simp [hk, ho]

/-- What a measurement does to the stations: it puts a new state into those of one kind, or nothing if there are none. -/
def Touches (kind : Bytes) (f : List (Station σ) → List (Station σ)) : Prop := f = id ∨ ∃ x, f = setState kind x

theorem Touches.comm {f g : List (Station σ) → List (Station σ)} (hf : Touches kind f) (hg : Touches other g)
    (h : kind ≠ other) (stations : List (Station σ)) : f (g stations) = g (f stations) := by
  rcases hf with rfl | ⟨x, rfl⟩
  · rfl
  · rcases hg with rfl | ⟨y, rfl⟩
    · rfl
    · exact setState_comm h x y stations

theorem Touches.station? {f : List (Station σ) → List (Station σ)} (hf : Touches kind f) (h : kind ≠ other)
    (s : State σ) (cancelled : Bool) :
    State.station? { stations := f s.stations, cancelled } other = s.station? other := by
  rcases hf with rfl | ⟨x, rfl⟩
  · rfl
  · exact station?_setState_of_ne h x s.stations

end Stations

/-! ### One measurement -/

section
variable {σ : Type} (plan : RunPlan) (req : Request)

/-- The measuring loop for a program at a station. -/
def visit (p : Program) (s : State σ) (station : Station σ) : Ending × Progress × Session σ :=
  repeatRuns station.executor (runRequest plan.workDir req p) p.expectOutput (nanoseconds req.minDurationMs).toInt mostRuns
    (s.session station) {}

variable {plan req}

theorem result_measure {p : Program} {s : State σ} {station : Station σ} (h : s.station? p.kind = some station) :
    (measure plan req p s).1 = conclude req.id p.name (visit plan req p s station).1 (visit plan req p s station).2.1 := by
  rw [measure, h]
  rfl

theorem state_measure {p : Program} {s : State σ} {station : Station σ} (h : s.station? p.kind = some station) :
    (measure plan req p s).2.1 =
      { stations := setState p.kind (visit plan req p s station).2.2.state s.stations
        cancelled := (visit plan req p s station).2.2.cancelled } := by
  rw [measure, h]
  rfl

theorem state_measure_of_none {p : Program} {s : State σ} (h : s.station? p.kind = none) :
    (measure plan req p s).2.1 = s := by
  rw [measure, h]

/-- Of a request, a measurement looks at the id and the limits only. -/
theorem measure_of_request {req' : Request} (hid : req'.id = req.id) (hleast : req'.minDurationMs = req.minDurationMs)
    (htime : req'.timeLimitMs = req.timeLimitMs) (hmemory : req'.memoryLimitKb = req.memoryLimitKb) (p : Program)
    (s : State σ) : measure plan req' p s = measure plan req p s := by
  have hrun : runRequest plan.workDir req' p = runRequest plan.workDir req p := by
    simp only [runRequest, hid, htime, hmemory]
  rw [measure, measure, hrun, hid, hleast]

theorem measure_listing (programs : List Program) (p : Program) (s : State σ) :
    measure plan (req.listing programs) p s = measure plan req p s := by
  apply measure_of_request <;> rfl

/-- A measurement depends on the station of its program and on whether the caller has given up, and touches that station
only. -/
theorem measure_local (plan : RunPlan) (req : Request) (p : Program) {s s' : State σ} (hstation : s.station? p.kind = s'.station? p.kind)
    (hcancelled : s.cancelled = s'.cancelled) :
    (measure plan req p s).1 = (measure plan req p s').1 ∧
      ∃ f, Touches p.kind f ∧ ∃ c, (measure plan req p s).2.1 = { stations := f s.stations, cancelled := c } ∧
        (measure plan req p s').2.1 = { stations := f s'.stations, cancelled := c } := by
  cases h : s.station? p.kind with
  | none =>
    have h' := hstation ▸ h
    refine ⟨?_, id, .inl rfl, s.cancelled, ?_, ?_⟩
    · rw [measure, measure, h, h']
    · rw [state_measure_of_none h]; rfl
    · rw [state_measure_of_none h', hcancelled]; rfl
  | some station =>
    have h' := hstation ▸ h
    have hvisit : visit plan req p s station = visit plan req p s' station := by
      rw [visit, State.session, hcancelled, visit, State.session]
    refine ⟨?_, setState p.kind (visit plan req p s station).2.2.state, .inr ⟨_, rfl⟩, _, state_measure h, ?_⟩
    · rw [result_measure h, result_measure h', hvisit]
    · rw [state_measure h', hvisit]

/-- Other stations stay as they are. -/
theorem station?_measure_of_ne {p : Program} {kind : Bytes} (h : p.kind ≠ kind) (s : State σ) :
    (measure plan req p s).2.1.station? kind = s.station? kind := by
  obtain ⟨-, f, hf, c, hstate, -⟩ := measure_local plan req p (Eq.refl (s.station? p.kind)) rfl
  rw [hstate, hf.station? h]

theorem not_cancelled_of_measure {p : Program} {s : State σ} (h : (measure plan req p s).2.1.cancelled = false) :
    s.cancelled = false := by
  cases hstation : s.station? p.kind with
  | none => rwa [state_measure_of_none hstation] at h
  | some station =>
    rw [state_measure hstation] at h
    by_contra hs
    have hsession : (s.session station).cancelled = true := by simpa [State.session] using hs
    have hgiven : (visit plan req p s station).2.2.cancelled = true := cancelled_repeatRuns hsession
    rw [hgiven] at h
    cases h

/-- Two programs at different stations are measured alike in either order, and leave the same state. -/
theorem measure_exchange {p q : Program} {s : State σ} (hne : p.kind ≠ q.kind)
    (calm : (measure plan req q (measure plan req p s).2.1).2.1.cancelled = false) :
    (measure plan req q s).1 = (measure plan req q (measure plan req p s).2.1).1 ∧
      (measure plan req p (measure plan req q s).2.1).1 = (measure plan req p s).1 ∧
      (measure plan req p (measure plan req q s).2.1).2.1 = (measure plan req q (measure plan req p s).2.1).2.1 := by
  have hp := not_cancelled_of_measure calm
  have hs := not_cancelled_of_measure hp
  -- the second program is measured as it would be first, since its station and the caller are as they were
  obtain ⟨hresultq, g, hg, d, hsq, hspq⟩ := measure_local plan req q
    (station?_measure_of_ne hne s).symm (hs.trans hp.symm)
  have hd : d = false := by rw [hspq] at calm; exact calm
  -- and so is the first one after it
  obtain ⟨hresultp, f, hf, c, hsqp, hsp⟩ := measure_local plan req p
    (station?_measure_of_ne hne.symm s) (show (measure plan req q s).2.1.cancelled = s.cancelled by rw [hsq, hd, hs])
  have hc : c = false := by rw [hsp] at hp; exact hp
  refine ⟨hresultq, hresultp, ?_⟩
  rw [hsqp, hspq, hsq, hsp, hf.comm hg hne, hc, hd]

end

/-! ### Programs one after the other -/

section
variable {σ : Type} {plan : RunPlan} {req : Request}

theorem stateAfter_append (s : State σ) (ps qs : List Program) :
    stateAfter plan req s (ps ++ qs) = stateAfter plan req (stateAfter plan req s ps) qs := by
  induction ps generalizing s with
  | nil => rfl
  | cons p ps ih => exact ih _

theorem resultsOf_append (s : State σ) (ps qs : List Program) :
    resultsOf plan req s (ps ++ qs) = resultsOf plan req s ps ++ resultsOf plan req (stateAfter plan req s ps) qs := by
  induction ps generalizing s with
  | nil => rfl
  | cons p ps ih => rw [List.cons_append, resultsOf, ih, resultsOf, List.cons_append, stateAfter]

theorem stateAfter_listing (programs : List Program) (s : State σ) (ps : List Program) :
    stateAfter plan (req.listing programs) s ps = stateAfter plan req s ps := by
  induction ps generalizing s with
  | nil => rfl
  | cons p ps ih => rw [stateAfter, stateAfter, measure_listing, ih]

theorem resultsOf_listing (programs : List Program) (s : State σ) (ps : List Program) :
    resultsOf plan (req.listing programs) s ps = resultsOf plan req s ps := by
  induction ps generalizing s with
  | nil => rfl
  | cons p ps ih => rw [resultsOf, resultsOf, measure_listing, ih]

theorem not_cancelled_of_stateAfter {s : State σ} {ps : List Program}
    (h : (stateAfter plan req s ps).cancelled = false) : s.cancelled = false := by
  induction ps generalizing s with
  | nil => exact h
  | cons p ps ih => exact not_cancelled_of_measure (ih h)

/-! ### Runs in which nobody gives up -/

/-- Programs that are all measured: nobody has given up before any of them, and nobody does while they are measured. The
number is that of the first program. -/
structure Undisturbed (plan : RunPlan) (req : Request) (s : State σ) (number : Nat) (programs : List Program) : Prop where
  inside : (stateAfter plan req s programs).cancelled = false
  outside : ∀ i < programs.length, plan.interrupted (number + i) = false

theorem runPrograms_state_cancelled (programs : List Program) (number : Nat) (s : State σ) (g : Gathered)
    (h : s.cancelled = true) : (runPrograms plan req programs number s g).2.cancelled = true := by
  induction programs generalizing number s g with
  | nil => exact h
  | cons p rest ih =>
    rw [runPrograms, if_pos (by rw [h]; rfl)]
    exact ih _ _ _ rfl

/-- A run at whose end nobody has given up was not disturbed, and its state is that after all its programs. -/
theorem runPrograms_undisturbed (programs : List Program) (number : Nat) (s : State σ) (g : Gathered)
    (h : (runPrograms plan req programs number s g).2.cancelled = false) :
    Undisturbed plan req s number programs := by
  induction programs generalizing number s g with
  | nil => exact ⟨h, fun i hi => absurd hi (Nat.not_lt_zero i)⟩
  | cons p rest ih =>
    by_cases hup : givenUp plan s number = true
    · rw [runPrograms, if_pos (show (s.cancelled || plan.interrupted number) = true from hup),
        runPrograms_state_cancelled rest _ _ _ rfl] at h
      cases h
    · rw [runPrograms_cons plan req hup] at h
      have hrest := ih _ _ _ h
      have hfirst : plan.interrupted number = false := by
        rw [givenUp, Bool.or_eq_true, not_or] at hup
        simpa using hup.2
      refine ⟨hrest.inside, ?_⟩
      rintro (_ | i) hi
      · exact hfirst
      · have hi' := hrest.outside i (Nat.lt_of_succ_lt_succ hi)
        rwa [show number + 1 + i = number + (i + 1) by omega] at hi'

theorem Undisturbed.runPrograms_eq {programs : List Program} {number : Nat} {s : State σ}
    (h : Undisturbed plan req s number programs) (g : Gathered) :
    (runPrograms plan req programs number s g).1.results = (resultsOf plan req s programs).reverse ++ g.results ∧
      (runPrograms plan req programs number s g).2 = stateAfter plan req s programs := by
  induction programs generalizing number s g with
  | nil => exact ⟨rfl, rfl⟩
  | cons p rest ih =>
    have hup : ¬ givenUp plan s number = true := by
      have hs := not_cancelled_of_stateAfter h.inside
      have hnumber := h.outside 0 (Nat.succ_pos _)
      rw [Nat.add_zero] at hnumber
      simp [givenUp, hs, hnumber]
    have hrest : Undisturbed plan req (measure plan req p s).2.1 (number + 1) rest := by
      refine ⟨h.inside, fun i hi => ?_⟩
      have hi' := h.outside (i + 1) (Nat.succ_lt_succ hi)
      rwa [show number + (i + 1) = number + 1 + i by omega] at hi'
    obtain ⟨hresults, hstate⟩ := ih hrest (g.add plan req p s)
    rw [runPrograms_cons plan req hup]
    refine ⟨?_, hstate⟩
    rw [hresults, resultsOf, List.reverse_cons, List.append_assoc]
    rfl

theorem Undisturbed.left {s : State σ} {number : Nat} {ps qs : List Program}
    (h : Undisturbed plan req s number (ps ++ qs)) : Undisturbed plan req s number ps := by
  refine ⟨?_, fun i hi => h.outside i ?_⟩
  · have hinside := h.inside
    rw [stateAfter_append] at hinside
    exact not_cancelled_of_stateAfter hinside
  · rw [List.length_append]
    omega

/-- Nobody gives up outside of a later part either, whichever of the numbers its programs get. -/
theorem Undisturbed.right {s : State σ} {ps qs : List Program} (h : Undisturbed plan req s 0 (ps ++ qs)) :
    Undisturbed plan req (stateAfter plan req s ps) 0 qs := by
  refine ⟨?_, fun i hi => h.outside i ?_⟩
  · rw [← stateAfter_append]
    exact h.inside
  · rw [List.length_append]
    omega

theorem Undisturbed.run_programList {s : State σ} (h : Undisturbed plan req s 0 req.programList) :
    (run plan req s).report.results.getD [] = resultsOf plan req s req.programList ∧
      (run plan req s).state = stateAfter plan req s req.programList := by
  obtain ⟨hresults, hstate⟩ := h.runPrograms_eq {}
  refine ⟨?_, hstate⟩
  simp only [run, hresults, List.append_nil, List.reverse_reverse, getD_someIfAny]

theorem Undisturbed.run_eq {s : State σ} {ps : List Program} (h : Undisturbed plan req s 0 ps) :
    (run plan (req.listing ps) s).report.results.getD [] = resultsOf plan req s ps ∧
      (run plan (req.listing ps) s).state = stateAfter plan req s ps := by
  have hlisting : Undisturbed plan (req.listing ps) s 0 ps := ⟨by rw [stateAfter_listing]; exact h.inside, h.outside⟩
  rw [← resultsOf_listing, ← stateAfter_listing]
  exact hlisting.run_programList

theorem undisturbed_of_run {s : State σ} {ps : List Program}
    (h : (run plan (req.listing ps) s).state.cancelled = false) : Undisturbed plan req s 0 ps := by
  have hlisting : Undisturbed plan (req.listing ps) s 0 ps := runPrograms_undisturbed ps 0 s {} h
  exact ⟨by rw [← stateAfter_listing]; exact hlisting.inside, hlisting.outside⟩

/-- Two neighbours at different stations change places. -/
theorem Undisturbed.exchange {s : State σ} {ps qs : List Program} {p q : Program} (hne : p.kind ≠ q.kind)
    (h : Undisturbed plan req s 0 (ps ++ p :: q :: qs)) :
    Undisturbed plan req s 0 (ps ++ q :: p :: qs) ∧
      stateAfter plan req s (ps ++ q :: p :: qs) = stateAfter plan req s (ps ++ p :: q :: qs) ∧
      ∃ before a b after, before.length = ps.length ∧
        resultsOf plan req s (ps ++ p :: q :: qs) = before ++ a :: b :: after ∧
        resultsOf plan req s (ps ++ q :: p :: qs) = before ++ b :: a :: after := by
  have hinside := h.inside
  rw [stateAfter_append, stateAfter, stateAfter] at hinside
  obtain ⟨hq, hp, hstate⟩ := measure_exchange hne (not_cancelled_of_stateAfter hinside)
  have hafter : stateAfter plan req s (ps ++ q :: p :: qs) = stateAfter plan req s (ps ++ p :: q :: qs) := by
    rw [stateAfter_append, stateAfter, stateAfter, hstate, stateAfter_append, stateAfter, stateAfter]
  refine ⟨⟨by rw [hafter]; exact h.inside, fun i hi => h.outside i (by simpa using hi)⟩, hafter, ?_⟩
  have hresults : ∀ p q, resultsOf plan req s (ps ++ p :: q :: qs) = resultsOf plan req s ps ++
      (measure plan req p (stateAfter plan req s ps)).1 ::
        (measure plan req q (measure plan req p (stateAfter plan req s ps)).2.1).1 ::
        resultsOf plan req (measure plan req q (measure plan req p (stateAfter plan req s ps)).2.1).2.1 qs := by
    intro p q
    rw [resultsOf_append, resultsOf, resultsOf]
  refine ⟨_, _, _, _, length_resultsOf plan req s ps, hresults p q, ?_⟩
  rw [hresults q p, hq, hp, hstate]

/-- Nobody gives up in a run where no call at any station makes the caller give up, and nothing from outside does. -/
theorem not_cancelled_stateAfter {s : State σ} (hs : s.cancelled = false)
    (quiet : ∀ st ∈ s.stations, ∀ c x r, (st.executor.execute c x r).cancels = false) (ps : List Program) :
    (stateAfter plan req s ps).cancelled = false := by
  induction ps generalizing s with
  | nil => exact hs
  | cons p ps ih =>
    rw [stateAfter]
    cases hstation : s.station? p.kind with
    | none =>
      rw [state_measure_of_none hstation]
      exact ih hs quiet
    | some station =>
      rw [state_measure hstation]
      refine ih (not_cancelled_repeatRuns (quiet station (List.mem_of_find?_eq_some hstation)) hs) ?_
      intro st hst
      obtain ⟨st', hst', rfl⟩ := List.mem_map.mp hst
      have hsame := quiet st' hst'
      split
      · exact hsame
      · exact hsame

end

/-- Programs at different stations are independent, as long as nobody gives up (which is never taken back, so that the
state at the end of a run tells). A run of programs is a run of the first of them and then, from the states in which that
left the stations, a run of the others. And two neighbours at different stations may change places: their two results change
places with them, every other result and the states at the end are the same. -/
theorem programs_independent {σ : Type} (plan : RunPlan) (req : Request) (s : State σ) :
    (∀ ps qs : List Program, (run plan (req.listing (ps ++ qs)) s).state.cancelled = false →
      let first := run plan (req.listing ps) s
      let later := run plan (req.listing qs) first.state
      (run plan (req.listing (ps ++ qs)) s).report.results.getD [] =
          first.report.results.getD [] ++ later.report.results.getD [] ∧
        (run plan (req.listing (ps ++ qs)) s).state = later.state) ∧
    (∀ (ps qs : List Program) (p q : Program), p.kind ≠ q.kind →
      (run plan (req.listing (ps ++ p :: q :: qs)) s).state.cancelled = false →
      (run plan (req.listing (ps ++ q :: p :: qs)) s).state = (run plan (req.listing (ps ++ p :: q :: qs)) s).state ∧
        ∃ before a b after, before.length = ps.length ∧
          (run plan (req.listing (ps ++ p :: q :: qs)) s).report.results.getD [] = before ++ a :: b :: after ∧
          (run plan (req.listing (ps ++ q :: p :: qs)) s).report.results.getD [] = before ++ b :: a :: after) := by
  refine ⟨?_, ?_⟩
  · intro ps qs calm first later
    have hwhole := undisturbed_of_run calm
    obtain ⟨hresults, hstate⟩ := hwhole.run_eq
    obtain ⟨hfirst, hleft⟩ := hwhole.left.run_eq
    obtain ⟨hlater, hright⟩ := hwhole.right.run_eq
    rw [hresults, hstate]
    simp only [first, later, hfirst, hleft, hlater, hright]
    exact ⟨resultsOf_append s ps qs, stateAfter_append s ps qs⟩
  · intro ps qs p q hne calm
    have hwhole := undisturbed_of_run calm
    obtain ⟨hexchanged, hafter, before, a, b, after, hlength, hresults, hresults'⟩ := hwhole.exchange hne
    refine ⟨?_, before, a, b, after, hlength, ?_, ?_⟩
    · rw [hexchanged.run_eq.2, hwhole.run_eq.2, hafter]
    · rw [hwhole.run_eq.1, hresults]
    · rw [hexchanged.run_eq.1, hresults']

/-- Two neighbours between a process of its own and a kernel, with executors that count their calls. -/
theorem programs_independent_counters :
    let counter : Executor Nat :=
      { id := [], execute := fun _ n _ => { outcome := .ok { memoryKb := Int64.ofNat n }, state := n + 1 } }
    let s : State Nat :=
      { stations := [{ kind := utf8 "direct", executor := counter, state := 3 },
          { kind := utf8 "inprocess", executor := counter, state := 7 }] }
    let p : Program := { name := utf8 "binary" }
    let q : Program := { name := utf8 "kernel", executor := utf8 "inprocess" }
    let req : Request := { id := utf8 "r" }
    p.kind ≠ q.kind ∧ (run {} (req.listing [p, p, q, q]) s).state.cancelled = false ∧
      ∃ before a b after, before.length = 1 ∧
        (run {} (req.listing [p, p, q, q]) s).report.results.getD [] = before ++ a :: b :: after ∧
        (run {} (req.listing [p, q, p, q]) s).report.results.getD [] = before ++ b :: a :: after := by
  intro counter s p q req
  have hne : p.kind ≠ q.kind := by decide
  have calm : (run {} (req.listing [p, p, q, q]) s).state.cancelled = false := by
    have hquiet : ∀ st ∈ s.stations, ∀ c x r, (st.executor.execute c x r).cancels = false := by
      simp only [s, List.forall_mem_cons]
      exact ⟨fun _ _ _ => rfl, fun _ _ _ => rfl, List.forall_mem_nil _⟩
    have hundisturbed : Undisturbed {} req s 0 [p, p, q, q] := ⟨not_cancelled_stateAfter rfl hquiet _, fun _ _ => rfl⟩
    rw [hundisturbed.run_eq.2]
    exact hundisturbed.inside
  have hexchange := (programs_independent {} req s).2 [p] [q] p q hne
  simp only [List.cons_append, List.nil_append] at hexchange
  exact ⟨hne, calm, (hexchange calm).2⟩

end Runner

end Stopwatch
