import Mathlib.Data.List.Basic
import Stopwatch.InProcess.Shared

/-!
Where strays are. A kernel that was left behind is in exactly one list, the shared one or that of a call which waits, and
leaves it only when its end is known. A move carries kernels from one list to another, drops one whose end is known, or
adds the one that its own call leaves behind.
-/

namespace Stopwatch.InProcess

/-! ### One move, and many -/

/-- The ways in which a call moves, with the strays after it. -/
inductive Call.Moves (number busy : Nat) (isFinished : Nat → Bool) (stray : List Nat) (c : Call) :
    Turn → Call → List Nat → Prop where
  | refuse {fault : Fault} (hstage : c.stage = .arriving) (hresult : resultFor c.request = .error fault) :
      c.Moves number busy isFinished stray .proceed { c with stage := .returned (.error fault) } stray
  | takeOver {result : Except Kernel.Error Bytes} (hstage : c.stage = .arriving)
      (hresult : resultFor c.request = .ok result) :
      c.Moves number busy isFinished stray .proceed { c with stage := .waiting stray } []
  | start (hstage : c.stage = .waiting []) :
      c.Moves number busy isFinished stray .proceed { c with stage := .watching, kernel := .running } stray
  | pass {first : Nat} {rest : List Nat} (hstage : c.stage = .waiting (first :: rest))
      (hfinished : isFinished first = true) :
      c.Moves number busy isFinished stray .proceed { c with stage := .waiting rest } stray
  | receive (hstage : c.stage = .watching) (hresult : c.kernel.hasResult = true) :
      c.Moves number busy isFinished stray .proceed
        { c with stage := .returned ((resultFor c.request).map (outcomeOf busy)) } stray
  | leave (hstage : c.stage = .leaving) :
      c.Moves number busy isFinished stray .proceed
        { c with stage := .returned (if c.cancelled then .error .canceled else .ok (timedOut c.request.timeLimitMs)) }
        stray
  | restore {first : Nat} {rest : List Nat} (hstage : c.stage = .waiting (first :: rest))
      (hcancelled : c.cancelled = true) :
      c.Moves number busy isFinished stray .giveUp { c with stage := .returned (.error .canceled) }
        (stray ++ first :: rest)
  | abandon (hstage : c.stage = .watching) (hover : (c.cancelled || c.expired) = true) :
      c.Moves number busy isFinished stray .giveUp { c with stage := .leaving } (stray ++ [number])
  | cancel : c.Moves number busy isFinished stray .cancel { c with cancelled := true } stray
  | expire (hstage : c.stage = .watching) (hlimit : 0 < c.request.timeLimitMs) :
      c.Moves number busy isFinished stray .expire { c with expired := true } stray
  | deliver (hkernel : c.kernel = .running) :
      c.Moves number busy isFinished stray .kernel { c with kernel := .delivered } stray
  | finish (hkernel : c.kernel = .delivered) :
      c.Moves number busy isFinished stray .kernel { c with kernel := .finished } stray

/-- There are no others. -/
theorem Call.moves_of_take {number busy : Nat} {isFinished : Nat → Bool} {stray stray' : List Nat} {c c' : Call}
    {turn : Turn} (h : c.take number busy isFinished stray turn = some (c', stray')) :
    c.Moves number busy isFinished stray turn c' stray' := by
  cases turn with
  | proceed =>
    rw [Call.take, Call.proceed] at h
    split at h
    · next hstage =>
      split at h
      · next hresult =>
        obtain ⟨rfl, rfl⟩ := Prod.mk.inj (Option.some.inj h)
        exact .refuse hstage hresult
      · next hresult =>
        obtain ⟨rfl, rfl⟩ := Prod.mk.inj (Option.some.inj h)
        exact .takeOver hstage hresult
    · next hstage =>
      obtain ⟨rfl, rfl⟩ := Prod.mk.inj (Option.some.inj h)
      exact .start hstage
    · next hstage =>
      obtain ⟨hfinished, h⟩ := Option.ite_none_right_eq_some.mp h
      obtain ⟨rfl, rfl⟩ := Prod.mk.inj (Option.some.inj h)
      exact .pass hstage hfinished
    · next hstage =>
      obtain ⟨hresult, h⟩ := Option.ite_none_right_eq_some.mp h
      obtain ⟨rfl, rfl⟩ := Prod.mk.inj (Option.some.inj h)
      exact .receive hstage hresult
    · next hstage =>
      obtain ⟨rfl, rfl⟩ := Prod.mk.inj (Option.some.inj h)
      exact .leave hstage
    · exact absurd h.symm (Option.some_ne_none _)
  | giveUp =>
    rw [Call.take, Call.giveUp] at h
    split at h
    · next hstage =>
      obtain ⟨hcancelled, h⟩ := Option.ite_none_right_eq_some.mp h
      obtain ⟨rfl, rfl⟩ := Prod.mk.inj (Option.some.inj h)
      exact .restore hstage hcancelled
    · next hstage =>
      obtain ⟨hover, h⟩ := Option.ite_none_right_eq_some.mp h
      obtain ⟨rfl, rfl⟩ := Prod.mk.inj (Option.some.inj h)
      exact .abandon hstage hover
    · exact absurd h.symm (Option.some_ne_none _)
  | cancel =>
    obtain ⟨rfl, rfl⟩ := Prod.mk.inj (Option.some.inj h)
    exact .cancel
  | expire =>
    rw [Call.take] at h
    split at h
    · next hstage =>
      obtain ⟨hlimit, h⟩ := Option.ite_none_right_eq_some.mp h
      obtain ⟨rfl, rfl⟩ := Prod.mk.inj (Option.some.inj h)
      exact .expire hstage hlimit
    · exact absurd h.symm (Option.some_ne_none _)
  | kernel =>
    rw [Call.take] at h
    cases hkernel : c.kernel with
    | absent => simp [hkernel, KernelStage.next?] at h
    | running =>
      rw [hkernel] at h
      obtain ⟨rfl, rfl⟩ := Prod.mk.inj (Option.some.inj h)
      exact .deliver hkernel
    | delivered =>
      rw [hkernel] at h
      obtain ⟨rfl, rfl⟩ := Prod.mk.inj (Option.some.inj h)
      exact .finish hkernel
    | finished => simp [hkernel, KernelStage.next?] at h

/-- A move does not bring a call back. -/
theorem Call.Moves.past {number busy : Nat} {isFinished : Nat → Bool} {stray stray' : List Nat} {c c' : Call}
    {turn : Turn} (h : c.Moves number busy isFinished stray turn c' stray') (hpast : c.stage.past = true) :
    c'.stage.past = true := by
  cases h <;> simp_all [CallStage.past]

theorem Call.Moves.kernel_ne_absent {number busy : Nat} {isFinished : Nat → Bool} {stray stray' : List Nat}
    {c c' : Call} {turn : Turn} (h : c.Moves number busy isFinished stray turn c' stray') (hkernel : c.kernel ≠ .absent) :
    c'.kernel ≠ .absent := by
  cases h <;> simp_all

/-- Only a call that has its kernel to come starts it. -/
theorem Call.Moves.running_of_past {number busy : Nat} {isFinished : Nat → Bool} {stray stray' : List Nat}
    {c c' : Call} {turn : Turn} (h : c.Moves number busy isFinished stray turn c' stray') (hpast : c.stage.past = true)
    (hrunning : c'.kernel = .running) : c.kernel = .running := by
  cases h <;> simp_all [CallStage.past]

namespace Shared

/-- The executor after a move of a call. -/
def put (s : Shared) (number : Nat) (c : Call) (stray : List Nat) : Shared :=
  { calls := s.calls.set number c, stray }

theorem step_eq_some {busy : Nat → Nat} {s t : Shared} {number : Nat} {turn : Turn}
    (hstep : s.step busy ⟨number, turn⟩ = some t) :
    ∃ c c' stray, s.calls[number]? = some c ∧
      c.Moves number (busy number) s.isFinished s.stray turn c' stray ∧ t = s.put number c' stray := by
  simp only [step] at hstep
  cases hc : s.calls[number]? with
  | none => simp [hc] at hstep
  | some c =>
    rw [hc] at hstep
    obtain ⟨⟨c', stray⟩, htake, rfl⟩ := Option.map_eq_some_iff.mp hstep
    exact ⟨c, c', stray, rfl, Call.moves_of_take htake, rfl⟩

/-- What every move keeps, every list of moves keeps. -/
theorem steps_induction {busy : Nat → Nat} {Inv : Shared → Prop}
    (hstep : ∀ s t m, Inv s → s.step busy m = some t → Inv t) :
    ∀ (schedule : List Move) (s t : Shared), Inv s → s.steps busy schedule = some t → Inv t
  | [], s, t, hs, ht => by
    rw [steps, Option.some.injEq] at ht
    exact ht ▸ hs
  | m :: rest, s, t, hs, ht => by
    rw [steps, Option.bind_eq_some_iff] at ht
    obtain ⟨u, hu, hrest⟩ := ht
    exact steps_induction hstep rest u t (hstep s u m hs hu) hrest

/-- A move replaces the call that moves. -/
theorem calls_put_eq_some {s : Shared} {number i : Nat} {c c' d : Call} {stray : List Nat}
    (hc : s.calls[number]? = some c) (hd : (s.put number c' stray).calls[i]? = some d) :
    (number = i ∧ c' = d) ∨ (number ≠ i ∧ s.calls[i]? = some d) := by
  by_cases hi : number = i
  · subst hi
    rw [put, List.getElem?_set_self (List.getElem?_eq_some_iff.mp hc).1, Option.some.injEq] at hd
    exact Or.inl ⟨rfl, hd⟩
  · rw [put, List.getElem?_set_ne hi] at hd
    exact Or.inr ⟨hi, hd⟩

theorem calls_put_self {s : Shared} {number : Nat} {c : Call} (hc : s.calls[number]? = some c) (c' : Call)
    (stray : List Nat) : (s.put number c' stray).calls[number]? = some c' := by
  rw [put, List.getElem?_set_self (List.getElem?_eq_some_iff.mp hc).1]

/-! ### What is held -/

/-- All strays that are still to be waited for, in the shared list or in that of a call. -/
def held (s : Shared) : List Nat := s.stray ++ s.calls.flatMap fun c => c.stage.pending

theorem count_flatMap_set (k : Nat) {c : Call} (c' : Call) : ∀ {calls : List Call} {number : Nat},
    calls[number]? = some c →
    ((calls.set number c').flatMap fun d => d.stage.pending).count k + c.stage.pending.count k =
      (calls.flatMap fun d => d.stage.pending).count k + c'.stage.pending.count k
  | [], _, hc => by simp at hc
  | d :: rest, 0, hc => by
    simp only [List.getElem?_cons_zero, Option.some.injEq] at hc
    simp only [List.set_cons_zero, List.flatMap_cons, List.count_append, hc]
    omega
  | d :: rest, number + 1, hc => by
    rw [List.getElem?_cons_succ] at hc
    have hrest := count_flatMap_set k c' hc
    simp only [List.set_cons_succ, List.flatMap_cons, List.count_append]
    omega

/-- What a move does to the number of places in which a kernel is held. -/
theorem count_held_put {s : Shared} {number : Nat} {c : Call} (hc : s.calls[number]? = some c) (c' : Call)
    (stray : List Nat) (k : Nat) :
    (s.put number c' stray).held.count k + (c.stage.pending.count k + s.stray.count k) =
      s.held.count k + (c'.stage.pending.count k + stray.count k) := by
  have hset := count_flatMap_set k c' hc
  simp only [held, put, List.count_append]
  omega

/-- A move changes where a kernel is held in two ways only: its end is known and somebody has waited for it, or its own
call leaves it behind. -/
theorem count_held_step {busy : Nat → Nat} {s t : Shared} {m : Move} (hstep : s.step busy m = some t) (k : Nat) :
    t.held.count k = s.held.count k ∨
    (s.isFinished k = true ∧ s.held.count k = t.held.count k + 1) ∨
    (∃ c, s.calls[k]? = some c ∧ c.stage = .watching ∧ t.calls[k]? = some { c with stage := .leaving } ∧
      t.held.count k = s.held.count k + 1) := by
  obtain ⟨number, turn⟩ := m
  obtain ⟨c, c', stray, hc, hmoves, rfl⟩ := step_eq_some hstep
  have hcount := count_held_put hc c' stray k
  cases hmoves with
  | @pass first rest hstage hfinished =>
    simp only [hstage, CallStage.pending, List.count_cons, beq_iff_eq] at hcount
    by_cases hk : first = k
    · subst hk
      simp only [if_true] at hcount
      exact Or.inr (Or.inl ⟨hfinished, by omega⟩)
    · simp only [hk, if_false] at hcount
      omega
  | abandon hstage hover =>
    simp only [hstage, CallStage.pending, List.count_append, List.count_singleton, beq_iff_eq] at hcount
    by_cases hk : number = k
    · subst hk
      simp only [if_true] at hcount
      exact Or.inr (Or.inr ⟨c, hc, hstage, calls_put_self hc _ _, by omega⟩)
    · simp only [hk, if_false] at hcount
      omega
  -- the other moves carry whole lists from one place to another, if anything
  | _ =>
    simp_all only [CallStage.pending, List.count_append, List.count_nil]
    omega

/-! ### Nothing is lost, and nothing is held twice -/

/-- An executor that holds every kernel at most once, no kernel that its call may still use, and every kernel that runs
without its call. -/
structure Conserved (s : Shared) : Prop where
  once : ∀ k, s.held.count k ≤ 1
  behind : ∀ k ∈ s.held, ∃ c, s.calls[k]? = some c ∧ c.stage.past = true ∧ c.kernel ≠ .absent
  early : ∀ (k : Nat) (c : Call), s.calls[k]? = some c → c.stage ≠ .watching → c.stage.past = false → c.kernel = .absent
  watched : ∀ (k : Nat) (c : Call), s.calls[k]? = some c → c.stage = .watching → c.kernel ≠ .absent
  kept : ∀ (k : Nat) (c : Call), s.calls[k]? = some c → c.stage.past = true → c.kernel = .running → s.held.count k = 1

theorem conserved_ofRequests (requests : List RunRequest) : Conserved (ofRequests requests) := by
  have hfresh : ∀ (k : Nat) (c : Call), (ofRequests requests).calls[k]? = some c →
      c.stage = .arriving ∧ c.kernel = .absent := by
    intro k c hc
    simp only [ofRequests, List.getElem?_map, Option.map_eq_some_iff] at hc
    obtain ⟨request, -, rfl⟩ := hc
    exact ⟨rfl, rfl⟩
  have hheld : (ofRequests requests).held = [] := by
    simp [held, ofRequests, CallStage.pending]
  refine ⟨fun k => by simp [hheld], fun k hk => by simp [hheld] at hk, fun k c hc _ _ => (hfresh k c hc).2,
    fun k c hc hstage => ?_, fun k c hc hpast _ => ?_⟩
  · rw [(hfresh k c hc).1] at hstage
    exact absurd hstage CallStage.noConfusion
  · rw [(hfresh k c hc).1] at hpast
    exact absurd hpast Bool.false_ne_true

variable {busy : Nat → Nat} {s t : Shared}

theorem Conserved.count_eq_zero (hs : Conserved s) {k : Nat} {c : Call} (hc : s.calls[k]? = some c)
    (hpast : c.stage.past = false) : s.held.count k = 0 := by
  rw [List.count_eq_zero]
  intro hk
  obtain ⟨d, hd, hover, -⟩ := hs.behind k hk
  rw [Option.some.inj (hd.symm.trans hc), hpast] at hover
  exact Bool.false_ne_true hover

theorem isFinished_eq_true_iff {k : Nat} {c : Call} (hc : s.calls[k]? = some c) :
    s.isFinished k = true ↔ c.kernel = .finished := by
  rw [isFinished, hc]
  exact beq_iff_eq

/-- What a call has left behind stays so. -/
theorem Conserved.behind_put {number : Nat} {turn : Turn} {c c' : Call} {stray : List Nat} (hs : Conserved s)
    (hc : s.calls[number]? = some c) (hmoves : c.Moves number (busy number) s.isFinished s.stray turn c' stray)
    {k : Nat} (hk : k ∈ s.held) :
    ∃ d, (s.put number c' stray).calls[k]? = some d ∧ d.stage.past = true ∧ d.kernel ≠ .absent := by
  obtain ⟨d, hd, hpast, hkernel⟩ := hs.behind k hk
  by_cases hnumber : number = k
  · subst hnumber
    obtain rfl : c = d := Option.some.inj (hc.symm.trans hd)
    exact ⟨c', calls_put_self hc c' stray, hmoves.past hpast, hmoves.kernel_ne_absent hkernel⟩
  · exact ⟨d, by rw [put, List.getElem?_set_ne hnumber, hd], hpast, hkernel⟩

theorem Conserved.step {m : Move} (hs : Conserved s) (hstep : s.step busy m = some t) : Conserved t := by
  obtain ⟨number, turn⟩ := m
  have hcounts := count_held_step hstep
  obtain ⟨c, c', stray, hc, hmoves, rfl⟩ := step_eq_some hstep
  refine ⟨fun k => ?_, fun k hk => ?_, fun k d hd hwatching hpast => ?_, fun k d hd hwatching => ?_,
    fun k d hd hpast hrunning => ?_⟩
  · -- once
    have hbefore := hs.once k
    rcases hcounts k with hsame | ⟨-, hless⟩ | ⟨d, hd, hwatching, -, hmore⟩
    · omega
    · omega
    · have hzero := hs.count_eq_zero hd (by rw [hwatching]; rfl)
      omega
  · -- behind
    rcases hcounts k with hsame | ⟨-, hless⟩ | ⟨d, hd, hwatching, hafter, -⟩
    · exact hs.behind_put hc hmoves (List.count_pos_iff.mp (hsame ▸ List.count_pos_iff.mpr hk))
    · exact hs.behind_put hc hmoves (List.count_pos_iff.mp (by omega))
    · exact ⟨_, hafter, rfl, hs.watched k d hd hwatching⟩
  · -- early
    rcases calls_put_eq_some hc hd with ⟨rfl, rfl⟩ | ⟨-, hd⟩
    · have hbefore := hs.early number c hc
      cases hmoves <;> simp_all [CallStage.past]
    · exact hs.early k d hd hwatching hpast
  · -- watched
    rcases calls_put_eq_some hc hd with ⟨rfl, rfl⟩ | ⟨-, hd⟩
    · have hbefore := hs.watched number c hc
      cases hmoves <;> simp_all
    · exact hs.watched k d hd hwatching
  · -- kept
    have hstay : ∀ e, s.calls[k]? = some e → e.stage.past = true → e.kernel = .running →
        (s.put number c' stray).held.count k = 1 := by
      intro e he hpast hrunning
      have hbefore := hs.kept k e he hpast hrunning
      rcases hcounts k with hsame | ⟨hfinished, -⟩ | ⟨d, hd, hwatching, -⟩
      · omega
      · rw [isFinished_eq_true_iff he, hrunning] at hfinished
        exact absurd hfinished KernelStage.noConfusion
      · rw [Option.some.inj (he.symm.trans hd), hwatching] at hpast
        exact absurd hpast Bool.false_ne_true
    rcases calls_put_eq_some hc hd with ⟨rfl, rfl⟩ | ⟨-, hd⟩
    · cases hbefore : c.stage.past with
      | true => exact hstay c hc hbefore (hmoves.running_of_past hbefore hrunning)
      | false =>
        -- a call that has just ended its part leaves a running kernel only by giving up on it
        have hearly := hs.early number c hc
        cases hmoves with
        | abandon hstage hover =>
          have hnone := hs.count_eq_zero hc hbefore
          have hcount := count_held_put hc { c with stage := .leaving } (s.stray ++ [number]) number
          simp only [hstage, CallStage.pending, List.count_append, List.count_nil, List.count_singleton_self] at hcount
          omega
        | receive hstage hresult =>
          rw [show c.kernel = .running from hrunning] at hresult
          exact absurd hresult Bool.false_ne_true
        | _ => simp_all [CallStage.past]
    · exact hstay d hd hpast hrunning

theorem conserved_steps {requests : List RunRequest} {schedule : List Move}
    (hsteps : (ofRequests requests).steps busy schedule = some s) : Conserved s :=
  steps_induction (fun _ _ _ hs ht => hs.step ht) schedule _ s (conserved_ofRequests requests) hsteps

/-! ### Every stray in one place -/

/-- Whether a kernel runs although its call has returned. One that has delivered its result is through with its work. -/
def leftRunning (s : Shared) (k : Nat) : Bool :=
  match s.calls[k]? with
  | some c => c.stage.isReturned && c.kernel == .running
  | none => false

theorem leftRunning_eq_true_iff {k : Nat} :
    s.leftRunning k = true ↔ ∃ c, s.calls[k]? = some c ∧ c.stage.isReturned = true ∧ c.kernel = .running := by
  rw [leftRunning]
  cases s.calls[k]? with
  | none => simp
  | some c => simp

theorem past_of_isReturned {stage : CallStage} (h : stage.isReturned = true) : stage.past = true := by
  cases stage <;> first | rfl | exact absurd h Bool.false_ne_true

theorem Conserved.count_leftRunning (hs : Conserved s) {k : Nat} (hk : s.leftRunning k = true) :
    s.held.count k = 1 := by
  obtain ⟨c, hc, hreturned, hrunning⟩ := leftRunning_eq_true_iff.mp hk
  exact hs.kept k c hc (past_of_isReturned hreturned) hrunning

theorem not_mem_pending {k j : Nat} {d : Call} {calls : List Call}
    (hnone : (calls.flatMap fun c => c.stage.pending).count k = 0) (hd : calls[j]? = some d) :
    k ∉ d.stage.pending := fun hk =>
  List.count_eq_zero.mp hnone (List.mem_flatMap.mpr ⟨d, List.mem_of_getElem? hd, hk⟩)

/-- What calls hold once, one call holds. -/
theorem exists_holder {k : Nat} : ∀ {calls : List Call}, (calls.flatMap fun c => c.stage.pending).count k = 1 →
    ∃ (j : Nat) (d : Call), calls[j]? = some d ∧ d.stage.pending.count k = 1 ∧
      ∀ (i : Nat) (e : Call), calls[i]? = some e → i ≠ j → k ∉ e.stage.pending
  | [], h => by simp at h
  | d :: rest, h => by
    rw [List.flatMap_cons, List.count_append] at h
    by_cases hd : d.stage.pending.count k = 0
    · have hrest : (rest.flatMap fun c => c.stage.pending).count k = 1 := by omega
      obtain ⟨j, e, he, hone, hothers⟩ := exists_holder hrest
      refine ⟨j + 1, e, he, hone, fun i f hf hi => ?_⟩
      cases i with
      | zero =>
        rw [List.getElem?_cons_zero, Option.some.injEq] at hf
        exact hf ▸ List.count_eq_zero.mp hd
      | succ i => exact hothers i f hf (by omega)
    · have hrest : (rest.flatMap fun c => c.stage.pending).count k = 0 := by omega
      refine ⟨0, d, rfl, by omega, fun i e he hi => ?_⟩
      cases i with
      | zero => exact absurd rfl hi
      | succ i =>
        rw [List.getElem?_cons_succ] at he
        exact not_mem_pending hrest he

/-- In every interleaving of calls, kernels and callers, a kernel that runs although its call has returned is held once:
in the shared list, or in that of one call which waits. Nothing is ever held twice, and what is held no longer after a
move had its end known before. -/
theorem strays_conserved (busy : Nat → Nat) (requests : List RunRequest) (schedule : List Move) (s : Shared)
    (hsteps : (ofRequests requests).steps busy schedule = some s) :
    (∀ k, s.leftRunning k = true →
      (s.stray.count k = 1 ∧ ∀ (j : Nat) (d : Call), s.calls[j]? = some d → k ∉ d.stage.pending) ∨
      (k ∉ s.stray ∧ ∃ (j : Nat) (d : Call), s.calls[j]? = some d ∧ d.stage.pending.count k = 1 ∧
        ∀ (i : Nat) (e : Call), s.calls[i]? = some e → i ≠ j → k ∉ e.stage.pending)) ∧
    (∀ k, s.held.count k ≤ 1) ∧
    (∀ m t k, s.step busy m = some t → k ∈ s.held → k ∉ t.held → s.isFinished k = true) := by
  have hs := conserved_steps hsteps
  refine ⟨fun k hk => ?_, hs.once, fun m t k hstep hbefore hafter => ?_⟩
  · have hone := hs.count_leftRunning hk
    rw [held, List.count_append] at hone
    by_cases hstray : s.stray.count k = 0
    · exact Or.inr ⟨List.count_eq_zero.mp hstray, exists_holder (by omega)⟩
    · exact Or.inl ⟨by omega, fun j d hd => not_mem_pending (by omega) hd⟩
  · have hpos := List.count_pos_iff.mpr hbefore
    have hzero := List.count_eq_zero.mpr hafter
    rcases count_held_step hstep k with hsame | ⟨hfinished, -⟩ | ⟨c, -, -, -, hmore⟩
    · omega
    · exact hfinished
    · omega

/-- Two calls leave their kernels behind, and a third takes both over. It waits for the first one, and its caller gives
up during the second: that one is back in the shared list, and nowhere else. -/
theorem strays_conserved_restored :
    let request : RunRequest := { command := some [utf8 "fib", utf8 "40"], timeLimitMs := 1 }
    let schedule : List Move :=
      [⟨0, .proceed⟩, ⟨0, .proceed⟩, ⟨1, .proceed⟩, ⟨1, .proceed⟩, ⟨0, .expire⟩, ⟨0, .giveUp⟩, ⟨0, .proceed⟩,
        ⟨1, .expire⟩, ⟨1, .giveUp⟩, ⟨1, .proceed⟩, ⟨2, .proceed⟩, ⟨0, .kernel⟩, ⟨0, .kernel⟩, ⟨2, .proceed⟩,
        ⟨2, .cancel⟩, ⟨2, .giveUp⟩]
    ∃ s, (ofRequests [request, request, request]).steps (fun _ => 0) schedule = some s ∧
      s.leftRunning 1 = true ∧ s.stray = [1] ∧
      ∀ (j : Nat) (d : Call), s.calls[j]? = some d → 1 ∉ d.stage.pending := by
  intro request schedule
  have hend : ((ofRequests [request, request, request]).steps (fun _ => 0) schedule).map
      (fun s => (s.leftRunning 1, s.stray)) = some (true, [1]) := by decide
  obtain ⟨s, hsteps, hshown⟩ := Option.map_eq_some_iff.mp hend
  obtain ⟨hleft, hstray⟩ := Prod.mk.inj hshown
  obtain ⟨hplace, -, -⟩ := strays_conserved (fun _ => 0) _ _ s hsteps
  rcases hplace 1 hleft with ⟨-, hnowhere⟩ | ⟨hnot, -⟩
  · exact ⟨s, hsteps, hleft, hstray, hnowhere⟩
  · exact absurd (by rw [hstray]; exact List.mem_singleton_self 1) hnot

end Shared

end Stopwatch.InProcess
