import Stopwatch.Proofs.Strays

/-!
What has finished when a kernel starts. A call waits for the strays that it has taken over, and for no others: those that
another call has taken over before may still run, and so may those that were left behind since. With one call at a time
there are none of either.
-/

namespace Stopwatch.InProcess

/-- Whether a move leaves all calls but one where they are, as those of callers and kernels do. -/
def Move.isAside (i : Nat) (m : Move) : Bool := m.number == i || m.turn == .cancel || m.turn == .kernel

namespace Shared

variable {busy : Nat → Nat} {s t : Shared}

/-! ### What a call has taken over -/

theorem isFinished_iff_exists {k : Nat} :
    s.isFinished k = true ↔ ∃ c, s.calls[k]? = some c ∧ c.kernel = .finished := by
  cases hc : s.calls[k]? with
  | none => simp [isFinished, hc]
  | some c => simp [isFinished_eq_true_iff hc]

/-- A kernel that has finished is never started again. -/
theorem Conserved.isFinished_step {m : Move} (hs : Conserved s) (hstep : s.step busy m = some t) {k : Nat}
    (hk : s.isFinished k = true) : t.isFinished k = true := by
  obtain ⟨number, turn⟩ := m
  obtain ⟨c, c', stray, hc, hmoves, rfl⟩ := step_eq_some hstep
  obtain ⟨d, hd, hfinished⟩ := isFinished_iff_exists.mp hk
  rw [isFinished_iff_exists]
  by_cases hnumber : number = k
  · subst hnumber
    obtain rfl : c = d := Option.some.inj (hc.symm.trans hd)
    refine ⟨c', calls_put_self hc c' stray, ?_⟩
    cases hmoves with
    | start hstage =>
      have habsent := hs.early number c hc (by simp [hstage]) (by rw [hstage]; rfl)
      exact absurd (habsent.symm.trans hfinished) KernelStage.noConfusion
    | deliver hkernel => exact absurd (hkernel.symm.trans hfinished) KernelStage.noConfusion
    | _ => first | rfl | exact hfinished
  · exact ⟨d, by rw [put, List.getElem?_set_ne hnumber, hd], hfinished⟩

/-- A call that has come for its strays, and has seen the end of those that it no longer waits for. -/
structure Awaits (i : Nat) (taken : List Nat) (s : Shared) : Prop where
  conserved : Conserved s
  arrived : ∀ c, s.calls[i]? = some c → c.stage ≠ .arriving
  passed : ∀ c pending, s.calls[i]? = some c → c.stage = .waiting pending →
    ∀ k ∈ taken, s.isFinished k = true ∨ k ∈ pending

theorem Awaits.step {i : Nat} {taken : List Nat} {m : Move} (hs : Awaits i taken s) (hstep : s.step busy m = some t) :
    Awaits i taken t := by
  have hkeep := fun k => hs.conserved.isFinished_step hstep (k := k)
  refine ⟨hs.conserved.step hstep, fun d hd => ?_, fun d pending hd hwaiting k hk => ?_⟩ <;>
    obtain ⟨number, turn⟩ := m <;> obtain ⟨c, c', stray, hc, hmoves, rfl⟩ := step_eq_some hstep <;>
    rcases calls_put_eq_some hc hd with ⟨rfl, rfl⟩ | ⟨-, hd⟩
  · have hbefore := hs.arrived c hc
    cases hmoves <;> simp_all
  · exact hs.arrived d hd
  · have hbefore := hs.passed c
    cases hmoves with
    | takeOver hstage => exact absurd hstage (hs.arrived c hc)
    | @pass first rest hstage hfinished =>
      obtain rfl : rest = pending := CallStage.waiting.inj hwaiting
      rcases hbefore _ hc hstage k hk with hk | hk
      · exact Or.inl (hkeep k hk)
      · rcases List.mem_cons.mp hk with rfl | hk
        · exact Or.inl (hkeep k hfinished)
        · exact Or.inr hk
    | cancel => exact (hbefore _ hc hwaiting k hk).imp_left (hkeep k)
    | expire hstage => exact absurd (hstage.symm.trans hwaiting) CallStage.noConfusion
    | deliver => exact (hbefore _ hc hwaiting k hk).imp_left (hkeep k)
    | finish => exact (hbefore _ hc hwaiting k hk).imp_left (hkeep k)
    | _ => exact absurd hwaiting (by simp)
  · exact (hs.passed d pending hd hwaiting k hk).imp_left (hkeep k)

/-- A call that has come for its strays has taken the whole shared list over. -/
theorem Awaits.of_arriving {i : Nat} {c : Call} (hs : Conserved s) (hc : s.calls[i]? = some c)
    (harriving : c.stage = .arriving) (hstep : s.step busy ⟨i, .proceed⟩ = some t) : Awaits i s.stray t := by
  have hconserved := hs.step hstep
  obtain ⟨c₁, c', stray, hc₁, hmoves, rfl⟩ := step_eq_some hstep
  obtain rfl : c₁ = c := Option.some.inj (hc₁.symm.trans hc)
  have hself : ∀ d, (s.put i c' stray).calls[i]? = some d → c' = d := fun d hd =>
    Option.some.inj ((calls_put_self hc c' stray).symm.trans hd)
  refine ⟨hconserved, fun d hd => ?_, fun d pending hd hwaiting k hk => ?_⟩ <;> obtain rfl := hself d hd
  · cases hmoves <;> simp_all
  · cases hmoves with
    | takeOver hstage hresult => exact Or.inr (CallStage.waiting.inj hwaiting ▸ hk)
    | _ => simp_all

theorem Awaits.steps {i : Nat} {taken : List Nat} {schedule : List Move} (hs : Awaits i taken s)
    (hsteps : s.steps busy schedule = some t) : Awaits i taken t :=
  steps_induction (fun _ _ _ hs ht => hs.step ht) schedule s t hs hsteps

/-- Somebody holds every kernel that runs without its call. -/
theorem Conserved.holder_leftRunning (hs : Conserved s) {k : Nat} (hk : s.leftRunning k = true) :
    k ∈ s.stray ∨ ∃ (j : Nat) (d : Call), s.calls[j]? = some d ∧ k ∈ d.stage.pending := by
  have hheld : k ∈ s.held := List.count_pos_iff.mp (by rw [hs.count_leftRunning hk]; exact Nat.one_pos)
  rcases List.mem_append.mp hheld with hstray | hpending
  · exact Or.inl hstray
  · obtain ⟨d, hmem, hk⟩ := List.mem_flatMap.mp hpending
    obtain ⟨j, hd⟩ := List.mem_iff_getElem?.mp hmem
    exact Or.inr ⟨j, d, hd, hk⟩

/-! ### One call at a time -/

/-- Calls other than one that have not moved since, with kernels that have at most gone on. -/
def Rests (i : Nat) (s t : Shared) : Prop :=
  ∀ j d, j ≠ i → t.calls[j]? = some d →
    ∃ d₀, s.calls[j]? = some d₀ ∧ d.stage = d₀.stage ∧ (d.kernel = .running → d₀.kernel = .running)

theorem Rests.step {i : Nat} {m : Move} {u : Shared} (hs : Rests i s t) (haside : m.isAside i = true)
    (hstep : t.step busy m = some u) : Rests i s u := by
  obtain ⟨number, turn⟩ := m
  obtain ⟨c, c', stray, hc, hmoves, rfl⟩ := step_eq_some hstep
  intro j d hj hd
  rcases calls_put_eq_some hc hd with ⟨rfl, rfl⟩ | ⟨-, hd⟩
  · obtain ⟨d₀, hd₀, hstage, hkernel⟩ := hs number c hj hc
    refine ⟨d₀, hd₀, ?_⟩
    cases hmoves <;> simp_all [Move.isAside]
  · exact hs j d hj hd

theorem Rests.steps {i : Nat} : ∀ {schedule : List Move} {t u : Shared}, Rests i s t →
    (∀ m ∈ schedule, m.isAside i = true) → t.steps busy schedule = some u → Rests i s u
  | [], t, u, ht, _, hsteps => Option.some.inj hsteps ▸ ht
  | m :: rest, t, u, ht, haside, hsteps => by
    rw [Shared.steps, Option.bind_eq_some_iff] at hsteps
    obtain ⟨v, hv, hrest⟩ := hsteps
    obtain ⟨hfirst, hothers⟩ := List.forall_mem_cons.mp haside
    exact (ht.step hfirst hv).steps hothers hrest

/-- With no other call on its way, all that is held is in the shared list. -/
theorem Conserved.mem_stray (hs : Conserved s) {i : Nat} {c : Call} (hc : s.calls[i]? = some c)
    (harriving : c.stage = .arriving)
    (halone : ∀ j d, j ≠ i → s.calls[j]? = some d → d.stage = .arriving ∨ d.stage.isReturned = true) {k : Nat}
    (hk : s.leftRunning k = true) : k ∈ s.stray := by
  rcases hs.holder_leftRunning hk with hstray | ⟨j, d, hd, hk⟩
  · exact hstray
  · have hnone : d.stage.pending = [] := by
      by_cases hj : j = i
      · subst hj
        rw [Option.some.inj (hd.symm.trans hc), harriving]
        rfl
      · rcases halone j d hj hd with hstage | hstage
        · rw [hstage]; rfl
        · generalize d.stage = stage at hstage
          cases stage <;> first | rfl | exact absurd hstage Bool.false_ne_true
    exact absurd (hnone ▸ hk) List.not_mem_nil

/-! ### The start of a kernel -/

/-- A call that is about to start its kernel, in any interleaving: all strays of the shared list that it found have
finished. A kernel that still runs although its call has returned was not in that list; it is in the shared list by now,
or with another call that waits. If no other call was on its way, and none has moved since, there is no such kernel. -/
theorem finished_before_start (busy : Nat → Nat) (requests : List RunRequest) (before after : List Move) (i : Nat)
    (s t : Shared) (c d : Call) (hbefore : (ofRequests requests).steps busy before = some s)
    (hc : s.calls[i]? = some c) (harriving : c.stage = .arriving)
    (hafter : s.steps busy (⟨i, .proceed⟩ :: after) = some t) (hd : t.calls[i]? = some d)
    (hready : d.stage = .waiting []) :
    (∀ k ∈ s.stray, t.isFinished k = true) ∧
    (∀ k, t.leftRunning k = true → k ∉ s.stray ∧
      (k ∈ t.stray ∨ ∃ j e, j ≠ i ∧ t.calls[j]? = some e ∧ k ∈ e.stage.pending)) ∧
    ((∀ j e, j ≠ i → s.calls[j]? = some e → e.stage = .arriving ∨ e.stage.isReturned = true) →
      (∀ m ∈ after, m.isAside i = true) → ∀ k, t.leftRunning k = false) := by
  have hs := conserved_steps hbefore
  have hsteps := hafter
  rw [steps, Option.bind_eq_some_iff] at hsteps
  obtain ⟨u, hu, hrest⟩ := hsteps
  have hawaits := (Awaits.of_arriving hs hc harriving hu).steps hrest
  have hfinished : ∀ k ∈ s.stray, t.isFinished k = true := fun k hk =>
    (hawaits.passed d [] hd hready k hk).resolve_right List.not_mem_nil
  have hnot : ∀ k, t.leftRunning k = true → k ∉ s.stray := by
    intro k hk hstray
    obtain ⟨e, he, -, hrunning⟩ := leftRunning_eq_true_iff.mp hk
    have hend := (isFinished_eq_true_iff he).mp (hfinished k hstray)
    exact absurd (hrunning.symm.trans hend) KernelStage.noConfusion
  refine ⟨hfinished, fun k hk => ⟨hnot k hk, ?_⟩, fun halone haside k => ?_⟩
  · rcases hawaits.conserved.holder_leftRunning hk with hstray | ⟨j, e, he, hk⟩
    · exact Or.inl hstray
    · refine Or.inr ⟨j, e, fun hj => ?_, he, hk⟩
      subst hj
      rw [Option.some.inj (he.symm.trans hd), hready] at hk
      exact List.not_mem_nil hk
  · rw [← Bool.not_eq_true]
    intro hk
    have hself : Rests i s s := fun j e _ he => ⟨e, he, rfl, id⟩
    have hall : ∀ m ∈ (⟨i, .proceed⟩ :: after : List Move), m.isAside i = true :=
      List.forall_mem_cons.mpr ⟨by simp [Move.isAside], haside⟩
    have hrests := hself.steps hall hafter
    obtain ⟨e, he, hreturned, hrunning⟩ := leftRunning_eq_true_iff.mp hk
    by_cases hki : k = i
    · subst hki
      rw [Option.some.inj (he.symm.trans hd), hready] at hreturned
      exact Bool.false_ne_true hreturned
    · obtain ⟨e₀, he₀, hstage, hkernel⟩ := hrests k e hki he
      have hleft : s.leftRunning k = true := leftRunning_eq_true_iff.mpr ⟨e₀, he₀, hstage ▸ hreturned, hkernel hrunning⟩
      exact hnot k hk (hs.mem_stray hc harriving halone hleft)

/-- A call leaves its kernel behind, and a second takes it over and waits. A third finds the shared list empty and is
about to start its own, next to the kernel that still runs. -/
theorem finished_before_start_fails_beside :
    let request : RunRequest := { command := some [utf8 "fib", utf8 "40"], timeLimitMs := 1 }
    let before : List Move :=
      [⟨0, .proceed⟩, ⟨0, .proceed⟩, ⟨0, .expire⟩, ⟨0, .giveUp⟩, ⟨0, .proceed⟩, ⟨1, .proceed⟩]
    ∃ s t d, (ofRequests [request, request, request]).steps (fun _ => 0) before = some s ∧
      s.steps (fun _ => 0) [⟨2, .proceed⟩] = some t ∧ t.calls[2]? = some d ∧ d.stage = .waiting [] ∧
      t.leftRunning 0 = true ∧ 0 ∉ s.stray ∧
      ∃ (j : Nat) (e : Call), j ≠ 2 ∧ t.calls[j]? = some e ∧ 0 ∈ e.stage.pending := by
  intro request before
  refine ⟨_, _, _, rfl, rfl, rfl, rfl, rfl, ?_⟩
  obtain ⟨-, hbeside, -⟩ := finished_before_start (fun _ => 0) [request, request, request] before [] 2 _ _ _ _ rfl rfl
    rfl rfl rfl rfl
  obtain ⟨hnot, hstray | hholder⟩ := hbeside 0 rfl
  · exact absurd hstray List.not_mem_nil
  · exact ⟨hnot, hholder⟩

end Shared

end Stopwatch.InProcess
