import Stopwatch.Proofs.Interleaving
import Stopwatch.Worker.Serving

/-!
The end of a service. If the subscriber is busy with no request when the pool is closed, all requests that were handed
in have a place, and are run and answered before the pool has been waited for. A request that the subscriber still holds
never gets a place: it is neither run nor answered, and from then on the process can end at any moment. So a shutdown is
sure to lose nothing exactly if the subscriber holds no request when the pool is closed.
-/

namespace Stopwatch.Worker

namespace Pool

variable {h : Handler} {p q : Pool}

/-! ### A job that is handed in -/

/-- The pool with a job that waits for a place. -/
def withBlocked (h : Handler) (p : Pool) (job : Job) : Pool :=
  let request := h.filled p.tasks.length job
  { tasks := p.tasks ++ [{ job, caller := 0, stage := .blocked request }]
    history := .received p.tasks.length request.id :: p.history }

theorem tasks_concat_eq_some {tasks : List Task} {t u : Task} {i : Nat} (hu : (tasks ++ [t])[i]? = some u) :
    (i = tasks.length ∧ t = u) ∨ (i < tasks.length ∧ tasks[i]? = some u) := by
  rcases Nat.lt_trichotomy i tasks.length with hi | rfl | hi
  · rw [List.getElem?_append_left hi] at hu
    exact Or.inr ⟨hi, hu⟩
  · rw [List.getElem?_concat_length, Option.some.injEq] at hu
    exact Or.inl ⟨rfl, hu⟩
  · rw [List.getElem?_eq_none (by rw [List.length_append]; exact hi)] at hu
    exact absurd hu.symm (Option.some_ne_none u)

theorem eq_withBlocked {job : Job} (hq : p.handIn h job = some q) : q = p.withBlocked h job := by
  obtain ⟨t, stage, acts, ht, -, hadvance, rfl⟩ := step_eq_some hq
  rw [expect, List.getElem?_concat_length, Option.some.injEq] at ht
  subst ht
  obtain ⟨rfl, rfl⟩ := Prod.mk.inj (Option.some.inj hadvance)
  simp [put, expect, withBlocked]

/-- The subscriber can hand in a job while none of its calls waits for a place. -/
theorem handIn_eq_some (h : Handler) (hentered : ∀ (i : Nat) (t : Task), p.tasks[i]? = some t → t.stage.outside = false)
    (job : Job) : p.handIn h job = some (p.withBlocked h job) := by
  have hfree : (p.expect job).callerFree p.tasks.length 0 = true := by
    rw [callerFree, Pool.expect, List.take_left, List.all_eq_true]
    intro t ht
    obtain ⟨i, hi⟩ := List.mem_iff_getElem?.mp ht
    rw [hentered i t hi, Bool.not_false, Bool.or_true]
  have htask : (p.expect job).tasks[p.tasks.length]? = some { job, caller := 0 } := List.getElem?_concat_length
  have hsome := isSome_step (h := h) htask (by rw [allows]; exact hfree) Stage.noConfusion
  obtain ⟨q, hq⟩ := Option.isSome_iff_exists.mp hsome
  rw [← eq_withBlocked hq]
  exact hq

theorem Regular.expect {jobs : List Job} (hp : Regular h (fun _ => 0) jobs p) (job : Job) :
    Regular h (fun _ => 0) (jobs ++ [job]) (p.expect job) := by
  refine ⟨by simp [Pool.expect, hp.length], fun i t ht => ?_, fun i t ht => ?_, fun a ha => ?_⟩
  · rcases tasks_concat_eq_some ht with ⟨rfl, rfl⟩ | ⟨hi, ht⟩
    · exact ⟨by rw [hp.length, List.getElem?_concat_length], rfl⟩
    · rw [List.getElem?_append_left (hp.length ▸ hi)]
      exact hp.origin i t ht
  · rcases tasks_concat_eq_some ht with ⟨rfl, rfl⟩ | ⟨-, ht⟩
    · -- nobody has acted under the number of a job to come
      refine List.filter_eq_nil_iff.mpr fun a ha => ?_
      have hlt := hp.known a (List.mem_reverse.mp ha)
      rw [← hp.length] at hlt
      simpa using Nat.ne_of_lt hlt
    · exact hp.onCourse i t ht
  · rw [List.length_append]
    exact Nat.lt_add_right _ (hp.known a ha)

theorem places_withBlocked (h : Handler) (p : Pool) (job : Job) : (p.withBlocked h job).places = p.places := by
  simp [places, withBlocked, Stage.placed]

theorem not_placed_of_places {i : Nat} {t : Task} (hnone : p.places = 0) (ht : p.tasks[i]? = some t) :
    t.stage.placed = false := by
  rw [places, List.countP_eq_zero] at hnone
  simpa using hnone t (List.mem_of_getElem? ht)

theorem any_outside_put {number : Nat} {t : Task} {stage : Stage} {acts : List Act} (ht : p.tasks[number]? = some t)
    (hbefore : t.stage.outside = false) (hafter : stage.outside = false) :
    ((p.put number t stage acts).tasks.any fun u => u.stage.outside) = p.tasks.any fun u => u.stage.outside := by
  rw [Bool.eq_iff_iff, List.any_eq_true, List.any_eq_true]
  constructor
  · rintro ⟨u, hmem, hout⟩
    obtain ⟨i, hu⟩ := List.mem_iff_getElem?.mp hmem
    rcases tasks_put_eq_some ht hu with ⟨-, rfl⟩ | ⟨-, hu⟩
    · exact absurd (hafter.symm.trans hout) Bool.false_ne_true
    · exact ⟨u, List.mem_of_getElem? hu, hout⟩
  · rintro ⟨u, hmem, hout⟩
    obtain ⟨i, hu⟩ := List.mem_iff_getElem?.mp hmem
    have hi : number ≠ i := by
      rintro rfl
      rw [Option.some.inj (hu.symm.trans ht), hbefore] at hout
      exact Bool.false_ne_true hout
    refine ⟨u, List.mem_of_getElem? (i := i) ?_, hout⟩
    rw [put, List.getElem?_set_ne hi, hu]

/-! ### What became of a job -/

/-- A job whose request was run once, and whose report was sent once if anyone waits for it. -/
def Serves (h : Handler) (p : Pool) (number : Nat) (job : Job) : Prop :=
  (p.actsOf number).filterMap Act.request? = [h.filled number job] ∧
  (p.actsOf number).filterMap Act.reply? = h.due number job

/-- A job whose request was not run, and which nobody has heard of. -/
def Ignores (p : Pool) (number : Nat) : Prop :=
  (p.actsOf number).filterMap Act.request? = [] ∧ (p.actsOf number).filterMap Act.reply? = []

theorem Regular.serves_of_done {caller : Nat → Nat} {jobs : List Job} (hp : Regular h caller jobs p) {i : Nat} {t : Task}
    (ht : p.tasks[i]? = some t) (hdone : t.stage = .done) : p.Serves h i t.job := by
  have hon := hp.onCourse i t ht
  rw [hdone] at hon
  rw [Serves, show p.actsOf i = h.course i t.job from hon]
  exact ⟨requests_course h i t.job, replies_course h i t.job⟩

theorem Regular.ignores_of_blocked {caller : Nat → Nat} {jobs : List Job} (hp : Regular h caller jobs p) {i : Nat}
    {t : Task} {request : Request} (ht : p.tasks[i]? = some t) (hblocked : t.stage = .blocked request) :
    p.Ignores i := by
  have hon := hp.onCourse i t ht
  rw [hblocked] at hon
  rw [Ignores, hon.2]
  exact ⟨rfl, rfl⟩

end Pool

namespace Serving

variable {h : Handler} {s t : Serving}

/-! ### One incident, and many -/

/-- What an incident comes to. -/
inductive Moves (h : Handler) (s : Serving) : Incident → Serving → Prop where
  | deliver (d : Bus.Delivery) (hphase : s.phase = .listening) (hfree : s.isFree = true) :
      s.Moves h (.deliver d) { s with message := some d }
  | skip {d : Bus.Delivery} (hmessage : s.message = some d) (hnone : d.request? = none) :
      s.Moves h .read { s with message := none }
  | hand {d : Bus.Delivery} {request : Request} {reply : Bytes} (hmessage : s.message = some d)
      (hsome : d.request? = some (request, reply))
      (hpool : s.pool.handIn h { request, reply } = some (s.pool.withBlocked h { request, reply })) :
      s.Moves h .read { s with pool := s.pool.withBlocked h { request, reply }, message := none }
  | work {number : Nat} {task : Task} {pool : Pool} (htask : s.pool.tasks[number]? = some task)
      (hmay : (s.phase.isOpen || !task.stage.outside) = true) (hpool : s.pool.step h number = some pool) :
      s.Moves h (.work number) { s with pool }
  | crash {number : Nat} {task : Task} (htask : s.pool.tasks[number]? = some task) (hclosed : s.phase.isOpen = false)
      (hout : task.stage.outside = true) : s.Moves h (.work number) { s with crashed := true }
  | shutDown {phase : Phase} (hphase : s.nextPhase? = some phase) : s.Moves h .shutDown { s with phase }

/-- There is nothing else, and nothing happens to a process that has ended. -/
theorem moves_of_step {e : Incident} (hstep : s.step h e = some t) : s.crashed = false ∧ s.Moves h e t := by
  obtain ⟨halive, hafter⟩ := Option.ite_none_left_eq_some.mp hstep
  refine ⟨Bool.eq_false_iff.mpr halive, ?_⟩
  cases e with
  | deliver d =>
    obtain ⟨⟨hphase, hfree⟩, ht⟩ := Option.ite_none_right_eq_some.mp hafter
    exact Option.some.inj ht ▸ .deliver d hphase hfree
  | read =>
    rw [after] at hafter
    split at hafter
    · exact absurd hafter.symm (Option.some_ne_none t)
    · next d hmessage =>
      split at hafter
      · next hnone => exact Option.some.inj hafter ▸ .skip hmessage hnone
      · next request reply hsome =>
        obtain ⟨pool, hpool, rfl⟩ := Option.map_eq_some_iff.mp hafter
        obtain rfl := Pool.eq_withBlocked hpool
        exact .hand hmessage hsome hpool
  | work number =>
    rw [after] at hafter
    split at hafter
    · exact absurd hafter.symm (Option.some_ne_none t)
    · next task htask =>
      split at hafter
      · next hmay =>
        obtain ⟨pool, hpool, rfl⟩ := Option.map_eq_some_iff.mp hafter
        exact .work htask hmay hpool
      · next hmay =>
        obtain ⟨hclosed, hout⟩ := Bool.or_eq_false_iff.mp (Bool.eq_false_iff.mpr hmay)
        exact Option.some.inj hafter ▸ .crash htask hclosed (by simpa using hout)
  | shutDown =>
    obtain ⟨phase, hphase, rfl⟩ := Option.map_eq_some_iff.mp hafter
    exact .shutDown hphase

/-- What every incident keeps, every list of incidents keeps. -/
theorem steps_induction {Inv : Serving → Prop} (hstep : ∀ s t e, Inv s → s.step h e = some t → Inv t) :
    ∀ (incidents : List Incident) (s t : Serving), Inv s → s.steps h incidents = some t → Inv t
  | [], s, t, hs, ht => by
    rw [steps, Option.some.injEq] at ht
    exact ht ▸ hs
  | e :: rest, s, t, hs, ht => by
    rw [steps, Option.bind_eq_some_iff] at ht
    obtain ⟨u, hu, hrest⟩ := ht
    exact steps_induction hstep rest u t (hstep s u e hs hu) hrest

theorem steps_cons {e : Incident} (hstep : s.step h e = some t) (rest : List Incident) :
    s.steps h (e :: rest) = t.steps h rest := by
  rw [steps, hstep, Option.bind_some]

/-! ### The subscriber has one job at a time -/

/-- A service whose jobs have kept to their courses, of which only the last may wait for a place. Nobody has a place once
the pool was waited for, and the process lives at least until the pool is closed. -/
structure Tidy (h : Handler) (s : Serving) : Prop where
  regular : ∃ jobs, s.pool.Regular h (fun _ => 0) jobs
  waits : ∀ (i : Nat) (u : Task), s.pool.tasks[i]? = some u → u.stage.outside = true →
    s.message = none ∧ i + 1 = s.pool.tasks.length ∧ ∃ request, u.stage = .blocked request
  vacant : s.phase.isOver = true → s.pool.places = 0
  alive : s.phase.isOpen = true → s.crashed = false

theorem tidy_empty (h : Handler) : Tidy h {} where
  regular := ⟨[], Pool.regular_ofJobs h (fun _ => 0) []⟩
  waits := fun i u hu => by simp at hu
  vacant := fun hover => absurd hover Bool.false_ne_true
  alive := fun _ => rfl

/-- A job that moves on after it was handed in has a place, or had one. -/
theorem inside_of_advance {number : Nat} {job : Job} {stage next : Stage} {acts : List Act}
    (hadvance : h.advance number job stage = some (next, acts)) (hqueued : stage ≠ .queued) : next.outside = false := by
  cases Handler.moves_of_advance hadvance with
  | receive => exact absurd rfl hqueued
  | _ => rfl

theorem closed_of_isOver {phase : Phase} (hover : phase.isOver = true) : phase.isOpen = false := by
  cases phase <;> first | rfl | exact absurd hover Bool.false_ne_true

theorem Tidy.step {e : Incident} (hs : Tidy h s) (hstep : s.step h e = some t) : Tidy h t := by
  obtain ⟨jobs, hregular⟩ := hs.regular
  obtain ⟨halive, hmoves⟩ := moves_of_step hstep
  cases hmoves with
  | deliver d hphase hfree =>
    refine ⟨hs.regular, fun i u hu hout => ?_, hs.vacant, hs.alive⟩
    obtain ⟨-, hinside⟩ := Bool.and_eq_true_iff.mp hfree
    have hin := List.all_eq_true.mp hinside u (List.mem_of_getElem? hu)
    simp [hout] at hin
  | skip hmessage hnone => exact ⟨hs.regular, fun i u hu hout => ⟨rfl, (hs.waits i u hu hout).2⟩, hs.vacant, hs.alive⟩
  | @hand d request reply hmessage hsome hpool =>
    refine ⟨⟨_, (hregular.expect ⟨request, reply⟩).step hpool⟩, fun i u hu hout => ?_, fun hover => ?_, hs.alive⟩
    · rcases Pool.tasks_concat_eq_some hu with ⟨rfl, rfl⟩ | ⟨-, hu⟩
      · exact ⟨rfl, by simp [Pool.withBlocked], _, rfl⟩
      · rw [(hs.waits i u hu hout).1] at hmessage
        exact absurd hmessage.symm (Option.some_ne_none d)
    · exact (Pool.places_withBlocked h s.pool _).trans (hs.vacant hover)
  | @work number task pool htask hmay hpool =>
    have hafter := hregular.step hpool
    obtain ⟨v, stage, acts, hv, -, hadvance, rfl⟩ := Pool.step_eq_some hpool
    obtain rfl : task = v := Option.some.inj (htask.symm.trans hv)
    refine ⟨⟨jobs, hafter⟩, fun i u hu hout => ?_, fun hover => ?_, hs.alive⟩
    · rcases Pool.tasks_put_eq_some hv hu with ⟨rfl, rfl⟩ | ⟨-, hu⟩
      · have hqueued : task.stage ≠ .queued := by
          intro hqueued
          obtain ⟨-, -, request, hblocked⟩ := hs.waits number task hv (by rw [hqueued]; rfl)
          exact Stage.noConfusion (hqueued.symm.trans hblocked)
        exact absurd hout (by simp [inside_of_advance hadvance hqueued])
      · rw [Pool.put, List.length_set]
        exact hs.waits i u hu hout
    · -- nobody has a place, and nobody gets one
      have hclosed := closed_of_isOver hover
      have hinside : task.stage.outside = false := by simpa [hclosed] using hmay
      have hplaced := Pool.not_placed_of_places (hs.vacant hover) hv
      exact absurd (Pool.stage_eq_done hinside hplaced) (Pool.advance_stage hadvance).1
  | crash htask hclosed hout =>
    exact ⟨hs.regular, hs.waits, hs.vacant, fun hopen => absurd (hclosed.symm.trans hopen) Bool.false_ne_true⟩
  | @shutDown phase hphase =>
    refine ⟨hs.regular, hs.waits, fun hover => ?_, fun _ => halive⟩
    rw [nextPhase?] at hphase
    cases hold : s.phase with
    | closing =>
      rw [hold] at hphase
      exact (Option.ite_none_right_eq_some.mp hphase).1
    | waited => exact hs.vacant (by rw [hold]; rfl)
    | drained => exact hs.vacant (by rw [hold]; rfl)
    | _ =>
      rw [hold] at hphase
      rw [← Option.some.inj hphase] at hover
      exact absurd hover Bool.false_ne_true

theorem tidy_steps {incidents : List Incident} (hsteps : ({} : Serving).steps h incidents = some s) : Tidy h s :=
  steps_induction (fun _ _ _ hs ht => hs.step ht) incidents _ s (tidy_empty h) hsteps

/-! ### After the pool is closed -/

theorem isOpen_nextPhase {phase : Phase} (hclosed : s.phase.isOpen = false) (hphase : s.nextPhase? = some phase) :
    phase.isOpen = false := by
  rw [nextPhase?] at hphase
  cases hold : s.phase with
  | closing =>
    rw [hold] at hphase
    rw [← Option.some.inj (Option.ite_none_right_eq_some.mp hphase).2]
    rfl
  | waited =>
    rw [hold] at hphase
    rw [← Option.some.inj hphase]
    rfl
  | drained => simp [hold] at hphase
  | _ =>
    rw [hold] at hclosed
    exact absurd hclosed.symm Bool.false_ne_true

/-- A service with a closed pool, by whether the subscriber was busy with a request when it was closed: the subscriber
keeps the request and gets no other, and the process can only end by that request. -/
structure Closed (h : Handler) (held : Bool) (s : Serving) : Prop where
  tidy : Tidy h s
  closed : s.phase.isOpen = false
  holds : s.holdsRequest = held
  alive : held = false → s.crashed = false

theorem inside_of_not_holds (hnone : s.holdsRequest = false) {i : Nat} {u : Task} (hu : s.pool.tasks[i]? = some u) :
    u.stage.outside = false := by
  obtain ⟨-, hinside⟩ := Bool.or_eq_false_iff.mp hnone
  simpa using List.any_eq_false.mp hinside u (List.mem_of_getElem? hu)

theorem Closed.step {held : Bool} {e : Incident} (hs : Closed h held s) (hstep : s.step h e = some t) :
    Closed h held t := by
  have htidy := hs.tidy.step hstep
  obtain ⟨halive, hmoves⟩ := moves_of_step hstep
  cases hmoves with
  | deliver d hphase hfree =>
    have hclosed := hs.closed
    rw [hphase] at hclosed
    exact absurd hclosed.symm Bool.false_ne_true
  | skip hmessage hnone =>
    refine ⟨htidy, hs.closed, ?_, hs.alive⟩
    rw [← hs.holds]
    simp [holdsRequest, hmessage, hnone]
  | hand hmessage hsome hpool =>
    refine ⟨htidy, hs.closed, ?_, hs.alive⟩
    rw [← hs.holds]
    simp [holdsRequest, hmessage, hsome, Pool.withBlocked, Stage.outside]
  | work htask hmay hpool =>
    have hinside := by simpa [hs.closed] using hmay
    obtain ⟨v, stage, acts, hv, -, hadvance, rfl⟩ := Pool.step_eq_some hpool
    obtain rfl := Option.some.inj (htask.symm.trans hv)
    have hafter := (Pool.advance_stage hadvance).2.2.1 hinside
    refine ⟨htidy, hs.closed, ?_, hs.alive⟩
    rw [← hs.holds, holdsRequest, holdsRequest, Pool.any_outside_put hv hinside hafter]
  | crash htask hclosed hout =>
    refine ⟨htidy, hs.closed, hs.holds, fun hnone => ?_⟩
    have hinside := inside_of_not_holds (hs.holds.trans hnone) htask
    exact absurd (hinside.symm.trans hout) Bool.false_ne_true
  | shutDown hphase => exact ⟨htidy, isOpen_nextPhase hs.closed hphase, hs.holds, hs.alive⟩

theorem Closed.steps {held : Bool} {incidents : List Incident} (hs : Closed h held s)
    (hsteps : s.steps h incidents = some t) : Closed h held t :=
  steps_induction (fun _ _ _ hu hv => hu.step hv) incidents s t hs hsteps

/-! ### A shutdown that loses nothing -/

/-- What a shutdown should keep to: the process lives, no call waits for a place, and once the pool was waited for, every
request that was handed in has been run once, and answered once if anyone waits for the answer. -/
structure Complete (h : Handler) (s : Serving) : Prop where
  alive : s.crashed = false
  entered : ∀ (i : Nat) (u : Task), s.pool.tasks[i]? = some u → u.stage.outside = false
  served : s.phase.isOver = true → ∀ (i : Nat) (u : Task), s.pool.tasks[i]? = some u → s.pool.Serves h i u.job

theorem Closed.complete (hs : Closed h false s) : s.Complete h where
  alive := hs.alive rfl
  entered := fun _ _ hu => inside_of_not_holds hs.holds hu
  served := by
    intro hover i u hu
    obtain ⟨jobs, hregular⟩ := hs.tidy.regular
    have hplaced := Pool.not_placed_of_places (hs.tidy.vacant hover) hu
    exact hregular.serves_of_done hu (Pool.stage_eq_done (inside_of_not_holds hs.holds hu) hplaced)

theorem shutDown_eq_some {phase : Phase} (halive : s.crashed = false) (hphase : s.nextPhase? = some phase) :
    s.step h .shutDown = some { s with phase } := by
  simp only [step, halive, Bool.false_eq_true, if_false, after, hphase, Option.map_some]

/-- Every job that has a place can move on, so that the pool is waited for after finitely many steps. -/
theorem Closed.exists_drained : ∀ (n : Nat) (s : Serving), s.pool.remaining = n → Closed h false s →
    ∃ incidents t, s.steps h incidents = some t ∧ t.phase = .drained
  | 0, s, hn, hs => by
    have hidle := Pool.remaining_eq_zero_iff.mp hn
    have hvacant : s.pool.places = 0 := by
      rw [Pool.places, List.countP_eq_zero]
      intro u hu hplaced
      rw [Pool.eq_done_of_isDone (List.all_eq_true.mp hidle u hu)] at hplaced
      exact Bool.false_ne_true hplaced
    have halive := hs.alive rfl
    have hwaited : ∀ {v : Serving}, v.crashed = false → v.phase = .waited →
        ∃ incidents t, v.steps h incidents = some t ∧ t.phase = .drained := by
      intro v hv hphase
      have hstep : v.step h .shutDown = some { v with phase := .drained } :=
        shutDown_eq_some hv (by rw [nextPhase?, hphase])
      exact ⟨[.shutDown], _, steps_cons hstep [], rfl⟩
    cases hphase : s.phase with
    | closing =>
      have hstep : s.step h .shutDown = some { s with phase := .waited } :=
        shutDown_eq_some halive (by rw [nextPhase?, hphase]; exact if_pos hvacant)
      obtain ⟨incidents, t, hsteps, ht⟩ := hwaited (v := { s with phase := .waited }) halive rfl
      exact ⟨.shutDown :: incidents, t, (steps_cons hstep incidents).trans hsteps, ht⟩
    | waited => exact hwaited halive hphase
    | drained => exact ⟨[], s, rfl, hphase⟩
    | _ =>
      have hclosed := hs.closed
      rw [hphase] at hclosed
      exact absurd hclosed.symm Bool.false_ne_true
  | n + 1, s, hn, hs => by
    have hbusy : s.pool.idle = false := by
      refine Bool.eq_false_iff.mpr fun hidle => ?_
      exact Nat.succ_ne_zero n (hn.symm.trans (Pool.remaining_eq_zero_iff.mpr hidle))
    obtain ⟨number, hsome⟩ := Pool.exists_step (h := h) hbusy
    obtain ⟨pool, hpool⟩ := Option.isSome_iff_exists.mp hsome
    obtain ⟨u, stage, acts, hu, -⟩ := Pool.step_eq_some hpool
    have hstep : s.step h (.work number) = some { s with pool } := by
      simp only [Serving.step, hs.alive rfl, Bool.false_eq_true, if_false, after, hu,
        inside_of_not_holds hs.holds hu, Bool.not_false, Bool.or_true, if_true, hpool, Option.map_some]
    have hless : pool.remaining = n := by
      have hone := Pool.remaining_step hpool
      omega
    obtain ⟨incidents, t, hsteps, ht⟩ := Closed.exists_drained n { s with pool } hless (hs.step hstep)
    exact ⟨.work number :: incidents, t, (steps_cons hstep incidents).trans hsteps, ht⟩

/-! ### A shutdown that loses a request -/

/-- A request that the subscriber has not got rid of: it is unread, or it was handed in last, and was neither run nor
answered. -/
def Strands (s : Serving) : Prop :=
  s.message.any (fun d => d.request?.isSome) = true ∨ ∃ i, i + 1 = s.pool.tasks.length ∧ s.pool.Ignores i

/-- The process has ended by a call to the closed pool, or can end so. -/
def Perishable (h : Handler) (s : Serving) : Prop := ∃ incidents t, s.steps h incidents = some t ∧ t.crashed = true

theorem exists_outside (hany : (s.pool.tasks.any fun t => t.stage.outside) = true) :
    ∃ (i : Nat) (u : Task), s.pool.tasks[i]? = some u ∧ u.stage.outside = true := by
  obtain ⟨u, hmem, hout⟩ := List.any_eq_true.mp hany
  obtain ⟨i, hu⟩ := List.mem_iff_getElem?.mp hmem
  exact ⟨i, u, hu, hout⟩

theorem Closed.strands (hs : Closed h true s) : s.Strands := by
  rcases Bool.or_eq_true_iff.mp hs.holds with hunread | hany
  · exact Or.inl hunread
  · obtain ⟨i, u, hu, hout⟩ := exists_outside hany
    obtain ⟨jobs, hregular⟩ := hs.tidy.regular
    obtain ⟨-, hlast, request, hblocked⟩ := hs.tidy.waits i u hu hout
    exact Or.inr ⟨i, hlast, hregular.ignores_of_blocked hu hblocked⟩

theorem crash_eq_some {i : Nat} {u : Task} (halive : s.crashed = false) (hclosed : s.phase.isOpen = false)
    (hu : s.pool.tasks[i]? = some u) (hout : u.stage.outside = true) :
    s.step h (.work i) = some { s with crashed := true } := by
  simp only [step, halive, Bool.false_eq_true, if_false, after, hu, hclosed, hout, Bool.not_true, Bool.or_self]

/-- The call for the request that is held is the end of the process, be it under way or still to come. -/
theorem Closed.perishable (hs : Closed h true s) : s.Perishable h := by
  cases halive : s.crashed with
  | true => exact ⟨[], s, rfl, halive⟩
  | false =>
    rcases Bool.or_eq_true_iff.mp hs.holds with hunread | hany
    · obtain ⟨d, hmessage, hsome⟩ := (Option.any_eq_true _ _).mp hunread
      obtain ⟨⟨request, reply⟩, hrequest⟩ := Option.isSome_iff_exists.mp hsome
      -- while a message is unread, no call waits, so that the next one can be made
      have hentered : ∀ (i : Nat) (u : Task), s.pool.tasks[i]? = some u → u.stage.outside = false := by
        intro i u hu
        refine Bool.eq_false_iff.mpr fun hout => ?_
        exact Option.some_ne_none d (hmessage.symm.trans (hs.tidy.waits i u hu hout).1)
      have hread : s.step h .read =
          some { s with pool := s.pool.withBlocked h { request, reply }, message := none } := by
        simp only [Serving.step, halive, Bool.false_eq_true, if_false, after, hmessage, hrequest,
          Pool.handIn_eq_some h hentered, Option.map_some]
      have hcrash := crash_eq_some (h := h) (s := { s with pool := s.pool.withBlocked h { request, reply }, message := none })
        halive hs.closed List.getElem?_concat_length rfl
      exact ⟨[.read, .work s.pool.tasks.length], _, (steps_cons hread _).trans (steps_cons hcrash []), rfl⟩
    · obtain ⟨i, u, hu, hout⟩ := exists_outside hany
      exact ⟨[.work i], _, steps_cons (crash_eq_some halive hs.closed hu hout) [], rfl⟩

/-! ### Shutting down -/

/-- A shutdown, in any interleaving: it is sure to keep to what it should exactly if the subscriber is busy with no
request when the pool is closed, and it can then always be brought to its end. A request that the subscriber holds is
neither run nor answered, and its call can end the process at any time, with all that is not answered by then. -/
theorem shutdown_complete_iff (h : Handler) (before : List Incident) (s : Serving)
    (hbefore : ({} : Serving).steps h before = some s) (hphase : s.phase = .unsubscribed) :
    ((∀ later t, s.steps h (.shutDown :: later) = some t → t.Complete h) ↔ s.holdsRequest = false) ∧
    ∀ later t, s.steps h (.shutDown :: later) = some t →
      (s.holdsRequest = false → ∃ rest u, t.steps h rest = some u ∧ u.phase = .drained) ∧
      (s.holdsRequest = true → t.Strands ∧ t.Perishable h) := by
  have htidy := tidy_steps hbefore
  have halive := htidy.alive (by rw [hphase]; rfl)
  have hclose : s.step h .shutDown = some { s with phase := .closing } :=
    shutDown_eq_some halive (by rw [nextPhase?, hphase])
  -- closing the pool changes nothing for the subscriber
  have hclosed : Closed h s.holdsRequest { s with phase := .closing } :=
    ⟨htidy.step hclose, rfl, rfl, fun _ => halive⟩
  have hlater : ∀ later t, s.steps h (.shutDown :: later) = some t → Closed h s.holdsRequest t := by
    intro later t hsteps
    rw [steps_cons hclose] at hsteps
    exact hclosed.steps hsteps
  refine ⟨⟨fun hall => Bool.eq_false_iff.mpr fun hheld => ?_, fun hnone later t hsteps => ?_⟩,
    fun later t hsteps => ⟨fun hnone => ?_, fun hheld => ?_⟩⟩
  · rw [hheld] at hclosed
    obtain ⟨incidents, t, hsteps, hcrashed⟩ := hclosed.perishable
    have hcomplete := hall incidents t ((steps_cons hclose incidents).trans hsteps)
    exact Bool.false_ne_true (hcomplete.alive.symm.trans hcrashed)
  · exact Closed.complete (hnone ▸ hlater later t hsteps)
  · exact Closed.exists_drained _ t rfl (hnone ▸ hlater later t hsteps)
  · have hheldAfter : Closed h true t := hheld ▸ hlater later t hsteps
    exact ⟨hheldAfter.strands, hheldAfter.perishable⟩

/-- With one place, a second request waits while the first one runs. Then the pool is closed, and the call that waits
ends the process: neither request is answered, and the second was not even run. -/
theorem shutdown_complete_iff_fails_blocked :
    let h : Handler :=
      { settings := { maxConcurrentJobs := 1 }
        freshId := fun number => utf8 "job" ++ [number.toUInt8]
        runner := fun _ request => { requestId := request.id, scoreMs := 0 }
        responder := some fun _ => none }
    let before : List Incident :=
      [.deliver ⟨utf8 "null", utf8 "a"⟩, .read, .work 0, .work 0, .deliver ⟨utf8 "null", utf8 "b"⟩, .read, .shutDown]
    ∃ s t, ({} : Serving).steps h before = some s ∧ s.holdsRequest = true ∧
      s.steps h [.shutDown, .work 1] = some t ∧ t.crashed = true ∧ t.pool.replies = [] ∧ t.pool.Ignores 1 ∧
      ¬ ∀ later t, s.steps h (.shutDown :: later) = some t → t.Complete h := by
  intro h before
  have hend : ((({} : Serving).steps h before).bind fun s =>
      (s.steps h [.shutDown, .work 1]).map fun t =>
        (s.phase, s.holdsRequest, t.crashed, t.message.isNone, t.pool.tasks.length, t.pool.replies.length)) =
      some (.unsubscribed, true, true, true, 2, 0) := by decide
  obtain ⟨s, hbefore, hrest⟩ := Option.bind_eq_some_iff.mp hend
  obtain ⟨t, hafter, hshown⟩ := Option.map_eq_some_iff.mp hrest
  simp only [Prod.mk.injEq] at hshown
  obtain ⟨hphase, hholds, hcrashed, hread, hlength, hreplies⟩ := hshown
  obtain ⟨hiff, hlater⟩ := shutdown_complete_iff h before s hbefore hphase
  refine ⟨s, t, hbefore, hholds, hafter, hcrashed, List.eq_nil_of_length_eq_zero hreplies, ?_, fun hall => ?_⟩
  · rcases ((hlater _ t hafter).2 hholds).1 with hunread | ⟨i, hlast, hignored⟩
    · simp [Option.isNone_iff_eq_none.mp hread] at hunread
    · obtain rfl : i = 1 := by omega
      exact hignored
  · exact Bool.false_ne_true ((hiff.mp hall).symm.trans hholds)

end Serving

end Stopwatch.Worker
