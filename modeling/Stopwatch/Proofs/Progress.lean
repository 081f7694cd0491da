import Mathlib.Algebra.Ring.Nat
import Mathlib.Data.Nat.Find
import Stopwatch.Proofs.Pool

/-!
No pool gets stuck. As long as a job is not done, some job can move: one that has a place, one that waits for a place if
nobody has one, or the next one of its caller. A job makes five steps, so that every schedule ends, and the plain one
ends with all jobs done.
-/

namespace Stopwatch.Worker

namespace Pool

/-! ### No pool gets stuck -/

theorem isSome_step {h : Handler} {p : Pool} {number : Nat} {t : Task} (ht : p.tasks[number]? = some t)
    (hallows : p.allows h number t = true) (hdone : t.stage ≠ .done) : (p.step h number).isSome = true := by
  rw [step]
  simp only [ht, hallows, if_true, Option.isSome_map]
  cases hs : t.stage <;> first | rfl | exact absurd hs hdone

theorem hasRoom_of_places_eq_zero {p : Pool} (hnone : p.places = 0) (limit : Int64) : p.hasRoom limit = true := by
  rw [hasRoom, hnone, Bool.or_eq_true, decide_eq_true_eq, decide_eq_true_eq]
  exact (Int64.le_or_lt limit 0).imp_right Int64.lt_iff_toInt_lt.mp

/-- The first job that was not handed in has a caller with nothing else to do, unless one waits for a place. -/
theorem exists_callerFree {p : Pool}
    (hblocked : ∀ (i : Nat) (t : Task) (request : Request), p.tasks[i]? = some t → t.stage ≠ .blocked request)
    (hqueued : ∃ (i : Nat) (t : Task), p.tasks[i]? = some t ∧ t.stage = .queued) :
    ∃ (i : Nat) (t : Task), p.tasks[i]? = some t ∧ t.stage = .queued ∧ p.callerFree i t.caller = true := by
  classical
  obtain ⟨t, ht, hs⟩ := Nat.find_spec hqueued
  refine ⟨Nat.find hqueued, t, ht, hs, ?_⟩
  rw [callerFree, List.all_eq_true]
  intro u hu
  obtain ⟨i, hi⟩ := List.mem_iff_getElem?.mp hu
  rw [List.getElem?_take, Option.ite_none_right_eq_some] at hi
  obtain ⟨hlt, hi⟩ := hi
  have hinside : u.stage.outside = false := by
    cases hs : u.stage with
    | queued => exact absurd ⟨u, hi, hs⟩ (Nat.find_min hqueued hlt)
    | blocked request => exact absurd hs (hblocked i u request hi)
    | admitted request => rfl
    | running request => rfl
    | reported request report => rfl
    | done => rfl
  simp [hinside]

/-- As long as a job is not done, some job can move. -/
theorem exists_step {h : Handler} {p : Pool} (hidle : p.idle = false) :
    ∃ number, (p.step h number).isSome = true := by
  by_cases hplaced : ∃ (i : Nat) (t : Task), p.tasks[i]? = some t ∧ t.stage.placed = true
  · -- a job that has a place waits for nothing
    obtain ⟨i, t, ht, hp⟩ := hplaced
    refine ⟨i, isSome_step ht ?_ ?_⟩
    · rw [allows]
      cases hs : t.stage <;> simp_all [Stage.placed]
    · intro hd
      simp [hd, Stage.placed] at hp
  have hnone : p.places = 0 := by
    rw [places, List.countP_eq_zero]
    intro t ht hp
    obtain ⟨i, hi⟩ := List.mem_iff_getElem?.mp ht
    exact hplaced ⟨i, t, hi, hp⟩
  by_cases hblocked : ∃ (i : Nat) (t : Task) (request : Request), p.tasks[i]? = some t ∧ t.stage = .blocked request
  · obtain ⟨i, t, request, ht, hs⟩ := hblocked
    refine ⟨i, isSome_step ht ?_ (by rw [hs]; exact Stage.noConfusion)⟩
    rw [allows, hs]
    exact hasRoom_of_places_eq_zero hnone _
  obtain ⟨t, ht, hdone⟩ := List.all_eq_false.mp hidle
  obtain ⟨i, hi⟩ := List.mem_iff_getElem?.mp ht
  have hqueued : t.stage = .queued := by
    cases hs : t.stage with
    | queued => rfl
    | blocked request => exact absurd ⟨i, t, request, hi, hs⟩ hblocked
    | done => rw [hs] at hdone; exact absurd rfl hdone
    | admitted request => exact absurd ⟨i, t, hi, by rw [hs]; rfl⟩ hplaced
    | running request => exact absurd ⟨i, t, hi, by rw [hs]; rfl⟩ hplaced
    | reported request report => exact absurd ⟨i, t, hi, by rw [hs]; rfl⟩ hplaced
  obtain ⟨j, u, hu, hs, hfree⟩ :=
    exists_callerFree (fun i t r ht hs => hblocked ⟨i, t, r, ht, hs⟩) ⟨i, t, hi, hqueued⟩
  refine ⟨j, isSome_step hu ?_ (by rw [hs]; exact Stage.noConfusion)⟩
  rw [allows, hs]
  exact hfree

end Pool

/-- The steps that a job at a stage has ahead. -/
def Stage.remaining : Stage → Nat
  | .queued => 5
  | .blocked _ => 4
  | .admitted _ => 3
  | .running _ => 2
  | .reported _ _ => 1
  | .done => 0

theorem remaining_advance {h : Handler} {number : Nat} {job : Job} {stage next : Stage} {acts : List Act}
    (hadvance : h.advance number job stage = some (next, acts)) : stage.remaining = next.remaining + 1 := by
  cases Handler.moves_of_advance hadvance <;> rfl

namespace Pool

/-- The steps that all jobs have ahead. -/
def remaining (p : Pool) : Nat := (p.tasks.map fun t => t.stage.remaining).sum

theorem remaining_eq_zero_iff {p : Pool} : p.remaining = 0 ↔ p.idle = true := by
  rw [remaining, List.sum_eq_zero_iff_forall_eq_nat, idle, List.all_eq_true]
  simp only [List.mem_map, forall_exists_index, and_imp, forall_apply_eq_imp_iff₂]
  refine forall₂_congr fun t _ => ?_
  cases t.stage <;> simp [Stage.remaining, Stage.isDone]

theorem sum_remaining_set {t u : Task} : ∀ {tasks : List Task} {number : Nat}, tasks[number]? = some t →
    t.stage.remaining = u.stage.remaining + 1 →
    (tasks.map fun t => t.stage.remaining).sum = ((tasks.set number u).map fun t => t.stage.remaining).sum + 1
  | [], _, ht, _ => by simp at ht
  | v :: rest, 0, ht, hstage => by
    simp only [List.getElem?_cons_zero, Option.some.injEq] at ht
    simp only [List.set_cons_zero, List.map_cons, List.sum_cons, ht, hstage]
    omega
  | v :: rest, number + 1, ht, hstage => by
    rw [List.getElem?_cons_succ] at ht
    have hrest := sum_remaining_set ht hstage
    simp only [List.set_cons_succ, List.map_cons, List.sum_cons, hrest]
    omega

theorem remaining_step {h : Handler} {p q : Pool} {number : Nat} (hstep : p.step h number = some q) :
    p.remaining = q.remaining + 1 := by
  obtain ⟨t, stage, acts, ht, -, hadvance, rfl⟩ := step_eq_some hstep
  exact sum_remaining_set ht (remaining_advance hadvance)

/-- Every schedule takes as many steps as the jobs have made. -/
theorem remaining_steps {h : Handler} : ∀ (schedule : List Nat) (p q : Pool), p.steps h schedule = some q →
    p.remaining = q.remaining + schedule.length
  | [], p, q, hq => by
    rw [steps, Option.some.injEq] at hq
    rw [hq, List.length_nil, Nat.add_zero]
  | number :: rest, p, q, hq => by
    rw [steps, Option.bind_eq_some_iff] at hq
    obtain ⟨r, hr, hrest⟩ := hq
    rw [remaining_step hr, remaining_steps rest r q hrest, List.length_cons]
    omega

theorem remaining_ofJobs (caller : Nat → Nat) (jobs : List Job) : (ofJobs caller jobs).remaining = 5 * jobs.length := by
  have hall : (ofJobs caller jobs).tasks.map (fun t => t.stage.remaining) = List.replicate jobs.length 5 := by
    refine List.eq_replicate_iff.mpr ⟨by simp [ofJobs], fun n hn => ?_⟩
    obtain ⟨t, ht, rfl⟩ := List.mem_map.mp hn
    obtain ⟨i, hi, rfl⟩ := List.mem_mapIdx.mp ht
    rfl
  rw [remaining, hall, List.sum_replicate_nat, Nat.mul_comm]

/-! ### The plain schedule -/

theorem exists_next {h : Handler} {p : Pool} (hidle : p.idle = false) :
    ∃ number q, p.next? h = some number ∧ p.step h number = some q := by
  obtain ⟨i, hi⟩ := exists_step hidle
  have hlt : i < p.tasks.length := by
    obtain ⟨q, hq⟩ := Option.isSome_iff_exists.mp hi
    obtain ⟨t, stage, acts, ht, -⟩ := step_eq_some hq
    exact (List.getElem?_eq_some_iff.mp ht).1
  have hmem : i ∈ (List.range p.tasks.length).filter fun number => (p.step h number).isSome :=
    List.mem_filter.mpr ⟨List.mem_range.mpr hlt, hi⟩
  obtain ⟨number, hnumber⟩ : ∃ number, p.next? h = some number := by
    refine Option.isSome_iff_exists.mp ?_
    rw [next?, Option.isSome_or, Bool.or_eq_true]
    exact Or.inr (List.isSome_head?.mpr (List.ne_nil_of_mem hmem))
  have hpossible : number ∈ (List.range p.tasks.length).filter fun number => (p.step h number).isSome := by
    rcases Option.or_eq_some_iff.mp hnumber with hfound | ⟨-, hhead⟩
    · exact List.mem_of_find?_eq_some hfound
    · exact List.mem_of_head? hhead
  obtain ⟨q, hq⟩ := Option.isSome_iff_exists.mp (List.mem_filter.mp hpossible).2
  exact ⟨number, q, hnumber, hq⟩

/-- The plain schedule is one of the schedules, and ends with all jobs done. -/
theorem follow_idle (h : Handler) : ∀ (n : Nat) (p : Pool) (most : Nat), p.remaining ≤ n →
    ∃ schedule, p.steps h schedule = some (follow h n p most).1 ∧ (follow h n p most).1.idle = true
  | 0, p, most, hn => ⟨[], rfl, remaining_eq_zero_iff.mp (Nat.le_zero.mp hn)⟩
  | n + 1, p, most, hn => by
    cases hnext : (p.next? h).bind (p.step h) with
    | none =>
      have hidle : p.idle = true := by
        by_contra hbusy
        obtain ⟨number, q, hnumber, hq⟩ := exists_next (h := h) (Bool.eq_false_iff.mpr hbusy)
        rw [hnumber, Option.bind_some, hq] at hnext
        exact Option.some_ne_none q hnext
      rw [follow, hnext]
      exact ⟨[], rfl, hidle⟩
    | some q =>
      obtain ⟨number, -, hq⟩ := Option.bind_eq_some_iff.mp hnext
      have hremaining := remaining_step hq
      obtain ⟨schedule, hsteps, hdone⟩ := follow_idle h n q (max most q.places) (by omega)
      rw [follow, hnext]
      exact ⟨number :: schedule, by rw [steps, hq, Option.bind_some, hsteps], hdone⟩

theorem drain_idle (h : Handler) (caller : Nat → Nat) (jobs : List Job) :
    ∃ schedule, (ofJobs caller jobs).steps h schedule = some ((ofJobs caller jobs).drain h).1 ∧
      ((ofJobs caller jobs).drain h).1.idle = true := by
  refine follow_idle h _ _ _ ?_
  rw [remaining_ofJobs]
  simp [ofJobs]

end Pool

end Stopwatch.Worker
