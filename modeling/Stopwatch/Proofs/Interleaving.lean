import Stopwatch.Proofs.Progress

/-!
All jobs, in all interleavings. Once a pool is idle its history holds the whole course of every job and nothing else; a
responder that fails changes nothing but its own answer; and no pool gets stuck before it is idle.
-/

namespace Stopwatch.Worker

/-! ### A list by the groups of its elements -/

section Groups
variable {α : Type} (key : α → Nat)

/-- The groups of a list, in the order of their keys. -/
def groups (n : Nat) (l : List α) : List α := (List.range n).flatMap fun i => l.filter fun a => key a == i

/-- The last group can be split off. -/
theorem groups_succ {n : Nat} {l : List α} (hbound : ∀ a ∈ l, key a < n + 1) :
    groups key (n + 1) l = groups key n (l.filter fun a => key a < n) ++ l.filter fun a => !decide (key a < n) := by
  have hlow : ∀ i ∈ List.range n, (l.filter fun a => key a == i) =
      (l.filter fun a => decide (key a < n)).filter fun a => key a == i := by
    intro i hi
    rw [List.filter_filter]
    refine List.filter_congr fun a _ => ?_
    by_cases hk : key a = i
    · simp [hk, List.mem_range.mp hi]
    · simp [hk]
  have hlast : (l.filter fun a => key a == n) = l.filter fun a => !decide (key a < n) := by
    refine List.filter_congr fun a ha => ?_
    have := hbound a ha
    by_cases hk : key a = n
    · simp [hk]
    · simp [hk, show key a < n by omega]
  rw [groups, List.range_succ, List.flatMap_append, List.flatMap_congr hlow, List.flatMap_singleton, hlast, groups]

/-- A list is its groups, up to order. -/
theorem groups_perm : ∀ (n : Nat) (l : List α), (∀ a ∈ l, key a < n) → (groups key n l).Perm l
  | 0, l, hbound => by
    cases l with
    | nil => exact List.Perm.refl _
    | cons a l => exact absurd (hbound a (List.mem_cons_self ..)) (Nat.not_lt_zero _)
  | n + 1, l, hbound => by
    rw [groups_succ key hbound]
    have hrec := groups_perm n (l.filter fun a => decide (key a < n)) fun a ha => by
      simpa using (List.mem_filter.mp ha).2
    exact (hrec.append_right _).trans (List.filter_append_perm _ l)

/-- A list in the order of the keys is its groups. -/
theorem groups_eq_of_sorted : ∀ (n : Nat) (l : List α), (∀ a ∈ l, key a < n) →
    l.Pairwise (fun a b => key a ≤ key b) → groups key n l = l
  | 0, l, hbound, _ => by
    cases l with
    | nil => rfl
    | cons a l => exact absurd (hbound a (List.mem_cons_self ..)) (Nat.not_lt_zero _)
  | n + 1, l, hbound, hsorted => by
    have hrec := groups_eq_of_sorted n (l.filter fun a => decide (key a < n))
      (fun a ha => by simpa using (List.mem_filter.mp ha).2) (hsorted.filter _)
    rw [groups_succ key hbound, hrec]
    -- whatever comes after a large key is large
    clear hrec hbound
    induction l with
    | nil => rfl
    | cons a l ih =>
      obtain ⟨hhead, htail⟩ := List.pairwise_cons.mp hsorted
      by_cases ha : key a < n
      · simpa [ha] using ih htail
      · have hlarge : ∀ b ∈ l, ¬ key b < n := fun b hb => by have := hhead b hb; omega
        have hnone : l.filter (fun b => decide (key b < n)) = [] :=
          List.filter_eq_nil_iff.mpr fun b hb => by simpa using hlarge b hb
        have hall : l.filter (fun b => !decide (key b < n)) = l :=
          List.filter_eq_self.mpr fun b hb => by simpa using hlarge b hb
        simp [ha, hnone, hall]

end Groups

/-- Whether an act is part of the work on a request, and not of handing it in. -/
def Act.isWork : Act → Bool
  | .received _ _ => false
  | _ => true

namespace Pool

/-- The work done, in order. -/
def work (p : Pool) : List Act := p.history.reverse.filter Act.isWork

/-! ### The order of a pool with one place -/

/-- A job that has worked has entered. -/
theorem Regular.entered_of_work {h : Handler} {caller : Nat → Nat} {jobs : List Job} {p : Pool}
    (hp : Regular h caller jobs p) {a : Act} (ha : a ∈ p.work) :
    ∃ t, p.tasks[a.number]? = some t ∧ t.stage.outside = false := by
  obtain ⟨hmem, hwork⟩ := List.mem_filter.mp ha
  have hlt := hp.known a (List.mem_reverse.mp hmem)
  rw [← hp.length] at hlt
  refine ⟨p.tasks[a.number], List.getElem?_eq_getElem hlt, ?_⟩
  have hon := hp.onCourse a.number _ (List.getElem?_eq_getElem hlt)
  have hacts : a ∈ p.actsOf a.number := List.mem_filter.mpr ⟨hmem, by simp⟩
  cases hs : (p.tasks[a.number]).stage with
  | queued =>
    rw [hs] at hon
    rw [show p.actsOf a.number = [] from hon] at hacts
    exact absurd hacts List.not_mem_nil
  | blocked request =>
    rw [hs] at hon
    rw [hon.2, Handler.course] at hacts
    simp only [List.cons_append, List.take_succ_cons, List.take_zero, List.mem_singleton] at hacts
    rw [hacts] at hwork
    exact absurd hwork Bool.false_ne_true
  | admitted request => rfl
  | running request => rfl
  | reported request report => rfl
  | done => rfl

/-- A pool that does its work in the order of the jobs. -/
structure Orderly (h : Handler) (caller : Nat → Nat) (jobs : List Job) (p : Pool) : Prop where
  regular : Regular h caller jobs p
  inOrder : InOrder p
  sorted : p.work.Pairwise fun a b => a.number ≤ b.number

theorem Orderly.step {h : Handler} {caller : Nat → Nat} {jobs : List Job} {p q : Pool} {number : Nat}
    (hlimit : h.settings.maxConcurrentJobs = 1) (hcaller : ∀ i j, caller i = caller j)
    (hp : Orderly h caller jobs p) (hstep : p.step h number = some q) : Orderly h caller jobs q := by
  refine ⟨hp.regular.step hstep, hp.inOrder.step hlimit hcaller hp.regular hstep, ?_⟩
  obtain ⟨t, stage, acts, ht, -, hadvance, rfl⟩ := step_eq_some hstep
  have hacts := advance_number hadvance
  have hwork : (p.put number t stage acts).work = p.work ++ acts.filter Act.isWork := by simp [work, put]
  rw [hwork, List.pairwise_append]
  refine ⟨hp.sorted, ?_, fun a ha b hb => ?_⟩
  · refine List.pairwise_of_forall_mem_list fun a ha b hb => ?_
    rw [hacts a (List.mem_filter.mp ha).1, hacts b (List.mem_filter.mp hb).1]
  · rw [hacts b (List.mem_filter.mp hb).1]
    by_contra hlt
    -- a later job has entered, so this one is done and cannot move
    obtain ⟨u, hu, hin⟩ := hp.regular.entered_of_work ha
    exact (advance_stage hadvance).1 (hp.inOrder.finished number a.number t u (by omega) ht hu hin)

theorem orderly_steps {h : Handler} {caller : Nat → Nat} {jobs : List Job} {schedule : List Nat} {p : Pool}
    (hlimit : h.settings.maxConcurrentJobs = 1) (hcaller : ∀ i j, caller i = caller j)
    (hsteps : (ofJobs caller jobs).steps h schedule = some p) : Orderly h caller jobs p :=
  steps_induction (fun _ _ _ hp hq => hp.step hlimit hcaller hq) schedule _ p
    ⟨regular_ofJobs h caller jobs, inOrder_ofJobs caller jobs, List.Pairwise.nil⟩ hsteps

end Pool

/-! ### A responder that fails -/

/-- The act with another answer of the responder. -/
def Act.withFailure (failure : Nat → Option Bytes) : Act → Act
  | .responded number id reply _ => .responded number id reply (failure number)
  | a => a

/-- The answer of the responder has no part in the step of a job. -/
theorem advance_withFailure {h : Handler} {failure : Nat → Option Bytes} (hresponder : h.responder = some failure)
    (failure' : Nat → Option Bytes) (number : Nat) (job : Job) (stage : Stage) :
    { h with responder := some failure' }.advance number job stage =
      (h.advance number job stage).map fun (next, acts) => (next, acts.map (Act.withFailure failure')) := by
  cases stage with
  | reported request report =>
    simp only [Handler.advance, Handler.answer, hresponder, Option.map_some]
    split <;> rfl
  | queued => rfl
  | blocked request => rfl
  | admitted request => rfl
  | running request => rfl
  | done => rfl

namespace Pool

/-- The pool with other answers of the responder. -/
def withFailure (failure : Nat → Option Bytes) (p : Pool) : Pool :=
  { tasks := p.tasks, history := p.history.map (Act.withFailure failure) }

theorem step_withFailure {h : Handler} {failure : Nat → Option Bytes} (hresponder : h.responder = some failure)
    (failure' : Nat → Option Bytes) (p : Pool) (number : Nat) :
    (p.withFailure failure').step { h with responder := some failure' } number =
      (p.step h number).map (withFailure failure') := by
  rw [step, step, show (p.withFailure failure').tasks = p.tasks from rfl]
  cases ht : p.tasks[number]? with
  | none => rfl
  | some t =>
    have hallows : allows { h with responder := some failure' } (p.withFailure failure') number t =
        p.allows h number t := rfl
    simp only [hallows, advance_withFailure hresponder]
    split
    · rw [Option.map_map, Option.map_map]
      refine congrArg (Option.map · _) (funext fun r => ?_)
      simp [withFailure]
    · rfl

/-- A schedule goes the same way whatever the responder answers. -/
theorem steps_withFailure {h : Handler} {failure : Nat → Option Bytes} (hresponder : h.responder = some failure)
    (failure' : Nat → Option Bytes) : ∀ (schedule : List Nat) (p : Pool),
    (p.withFailure failure').steps { h with responder := some failure' } schedule =
      (p.steps h schedule).map (withFailure failure')
  | [], _ => rfl
  | number :: rest, p => by
    rw [steps, steps, step_withFailure hresponder, Option.bind_map, Option.map_bind]
    exact congrArg _ (funext fun q => steps_withFailure hresponder failure' rest q)

end Pool

/-! ### All jobs -/

/-- The reports that a job sends: its own, to whoever waits for it. -/
def Handler.due (h : Handler) (number : Nat) (job : Job) : List Reply :=
  if h.responds job then [{ subject := job.reply, report := h.runner number (h.filled number job) }] else []

theorem requests_course (h : Handler) (number : Nat) (job : Job) :
    (h.course number job).filterMap Act.request? = [h.filled number job] := by
  rw [Handler.course, Handler.answer]
  cases h.responder with
  | none => rfl
  | some failure => cases job.reply.isEmpty <;> rfl

theorem replies_course (h : Handler) (number : Nat) (job : Job) :
    (h.course number job).filterMap Act.reply? = h.due number job := by
  rw [Handler.course, Handler.answer, Handler.due, Handler.responds]
  cases h.responder with
  | none => cases job.reply.isEmpty <;> rfl
  | some failure => cases job.reply.isEmpty <;> rfl

theorem map_courses {β : Type} (h : Handler) (jobs : List Job) (view : List Act → β) :
    (jobs.mapIdx h.course).map view = jobs.mapIdx fun i job => view (h.course i job) :=
  List.ext_getElem (by simp) fun _ _ _ => by simp

theorem requests_courses (h : Handler) (jobs : List Job) :
    (jobs.mapIdx h.course).flatten.filterMap Act.request? = jobs.mapIdx h.filled := by
  rw [List.filterMap_flatten, map_courses]
  simp only [requests_course]
  rw [List.mapIdx_eq_zipIdx_map, List.mapIdx_eq_zipIdx_map, ← List.flatMap_def, List.map_eq_flatMap]

theorem replies_courses (h : Handler) (jobs : List Job) :
    (jobs.mapIdx h.course).flatten.filterMap Act.reply? = (jobs.mapIdx h.due).flatten := by
  rw [List.filterMap_flatten, map_courses]
  simp only [replies_course]

/-- What is known of every job by its number, all jobs have together. -/
theorem flatMap_range_eq {α : Type} {jobs : List Job} {f : Nat → List α} {g : Nat → Job → List α}
    (hjob : ∀ i job, jobs[i]? = some job → f i = g i job) :
    (List.range jobs.length).flatMap f = (jobs.mapIdx g).flatten := by
  rw [List.flatMap_def]
  refine congrArg List.flatten (List.ext_getElem (by simp) fun i hi _ => ?_)
  have hlt : i < jobs.length := by simpa using hi
  simpa using hjob i jobs[i] (List.getElem?_eq_getElem hlt)

namespace Pool

variable {h : Handler} {caller : Nat → Nat} {jobs : List Job} {p : Pool}

/-- In an idle pool every job has gone its whole course. -/
theorem Regular.actsOf_eq (hp : Regular h caller jobs p) (hidle : p.idle = true) {i : Nat} {job : Job}
    (hjob : jobs[i]? = some job) : p.actsOf i = h.course i job := by
  have hlt : i < p.tasks.length := by
    rw [hp.length]
    exact (List.getElem?_eq_some_iff.mp hjob).1
  have ht := List.getElem?_eq_getElem hlt
  have hon := hp.onCourse i _ ht
  have hdone := eq_done_of_isDone (List.all_eq_true.mp hidle _ (List.getElem_mem hlt))
  have hsame : p.tasks[i].job = job := Option.some.inj ((hp.origin i _ ht).1.symm.trans hjob)
  rw [hsame, hdone] at hon
  exact hon

/-- The history of an idle pool with one job is the course of that job, whatever schedule it took. -/
theorem Regular.history_eq {job : Job} (hp : Regular h caller [job] p) (hidle : p.idle = true) :
    p.history.reverse = h.course 0 job := by
  have hown : ∀ a ∈ p.history.reverse, (a.number == 0) = true := by
    intro a ha
    have := hp.known a (List.mem_reverse.mp ha)
    simpa using this
  rw [← hp.actsOf_eq hidle (List.getElem?_cons_zero ..), actsOf, List.filter_eq_self.mpr hown]

theorem history_drain (h : Handler) (job : Job) :
    ((ofJobs (fun _ => 0) [job]).drain h).1.history.reverse = h.course 0 job := by
  obtain ⟨schedule, hsteps, hidle⟩ := drain_idle h (fun _ => 0) [job]
  exact (regular_steps hsteps).history_eq hidle

/-- The history of an idle pool is that of all courses, up to order. -/
theorem Regular.history_perm (hp : Regular h caller jobs p) (hidle : p.idle = true) :
    p.history.reverse.Perm (jobs.mapIdx h.course).flatten := by
  have hgroups : groups Act.number jobs.length p.history.reverse = (jobs.mapIdx h.course).flatten :=
    flatMap_range_eq fun i job hjob => hp.actsOf_eq hidle hjob
  rw [← hgroups]
  exact (groups_perm Act.number _ _ fun a ha => hp.known a (List.mem_reverse.mp ha)).symm

/-- With one place and one caller, an idle pool has done its work one course after the other. -/
theorem Orderly.work_eq (hp : Orderly h caller jobs p) (hidle : p.idle = true) :
    p.work = (jobs.mapIdx h.course).flatten.filter Act.isWork := by
  have hknown : ∀ a ∈ p.work, a.number < jobs.length := fun a ha =>
    hp.regular.known a (List.mem_reverse.mp (List.mem_filter.mp ha).1)
  rw [← groups_eq_of_sorted Act.number _ _ hknown hp.sorted, groups, List.filter_flatten, map_courses]
  refine flatMap_range_eq fun i job hjob => ?_
  rw [← hp.regular.actsOf_eq hidle hjob, work, actsOf, List.filter_filter, List.filter_filter]
  exact List.filter_congr fun a _ => Bool.and_comm _ _

/-- Handing a request in shows nothing of the runner or the responder. -/
theorem filterMap_filter_isWork {β : Type} {view : Act → Option β}
    (hview : ∀ number id, view (.received number id) = none) (acts : List Act) :
    (acts.filter Act.isWork).filterMap view = acts.filterMap view := by
  rw [List.filterMap_filter]
  refine congrArg (List.filterMap · acts) (funext fun a => ?_)
  cases a with
  | received number id => exact (hview number id).symm
  | called number request => rfl
  | returned number id => rfl
  | responded number id reply failure => rfl

theorem Orderly.seen_eq (hp : Orderly h caller jobs p) (hidle : p.idle = true) : p.seen = jobs.mapIdx h.filled := by
  rw [seen, ← filterMap_filter_isWork fun _ _ => rfl, ← work, hp.work_eq hidle,
    filterMap_filter_isWork fun _ _ => rfl, requests_courses]

theorem Orderly.replies_eq (hp : Orderly h caller jobs p) (hidle : p.idle = true) :
    p.replies = (jobs.mapIdx h.due).flatten := by
  rw [replies, ← filterMap_filter_isWork fun _ _ => rfl, ← work, hp.work_eq hidle,
    filterMap_filter_isWork fun _ _ => rfl, replies_courses]

/-- In every interleaving, the jobs that have a place are within the limit, some job can move until all are done, and
a responder that answers otherwise changes its own answers only. Once all are done, the runner got the request of every
job once, filled in, and the responder got the report of every job that somebody waits for once; with one place and one
caller, both in the order of the jobs. -/
theorem jobs_exactly_once (h : Handler) (caller : Nat → Nat) (jobs : List Job) (schedule : List Nat) (p : Pool)
    (hsteps : (ofJobs caller jobs).steps h schedule = some p) :
    (0 < h.settings.maxConcurrentJobs → (p.places : Int) ≤ h.settings.maxConcurrentJobs.toInt) ∧
    (schedule.length ≤ 5 * jobs.length ∧ (p.idle = false → ∃ number, (p.step h number).isSome = true)) ∧
    (∀ failure failure', h.responder = some failure →
      (ofJobs caller jobs).steps { h with responder := some failure' } schedule = some (p.withFailure failure')) ∧
    (p.idle = true →
      (∀ i job, jobs[i]? = some job →
        (p.actsOf i).filterMap Act.request? = [h.filled i job] ∧
        (p.actsOf i).filterMap Act.reply? = h.due i job) ∧
      p.seen.Perm (jobs.mapIdx h.filled) ∧
      p.replies.Perm (jobs.mapIdx h.due).flatten ∧
      (h.settings.maxConcurrentJobs = 1 → (∀ i j, caller i = caller j) →
        p.work = (jobs.mapIdx h.course).flatten.filter Act.isWork ∧
        p.seen = jobs.mapIdx h.filled ∧ p.replies = (jobs.mapIdx h.due).flatten)) := by
  have hregular := regular_steps hsteps
  refine ⟨fun hlimit => places_le_limit hlimit hsteps, ⟨?_, exists_step⟩, fun failure failure' hresponder => ?_,
    fun hidle => ⟨fun i job hjob => ?_, ?_, ?_, fun hlimit hcaller => ?_⟩⟩
  · have hremaining := remaining_steps schedule _ p hsteps
    rw [remaining_ofJobs] at hremaining
    omega
  · have hsame := steps_withFailure hresponder failure' schedule (ofJobs caller jobs)
    rw [hsteps] at hsame
    exact hsame
  · rw [hregular.actsOf_eq hidle hjob]
    exact ⟨requests_course h i job, replies_course h i job⟩
  · rw [← requests_courses]
    exact (hregular.history_perm hidle).filterMap _
  · rw [← replies_courses]
    exact (hregular.history_perm hidle).filterMap _
  · have horderly := orderly_steps hlimit hcaller hsteps
    exact ⟨horderly.work_eq hidle, horderly.seen_eq hidle, horderly.replies_eq hidle⟩

/-- Two jobs of one caller in a pool of one place; the second is handed in while the first runs, and waits for it. -/
theorem jobs_exactly_once_blocked :
    let h : Handler :=
      { settings := { maxConcurrentJobs := 1, minDurationMs := 5 }
        freshId := fun number => utf8 "job" ++ [number.toUInt8]
        runner := fun number request => { requestId := request.id, scoreMs := Float.ofNat number }
        responder := some fun number => if number = 0 then some (utf8 "gone") else none }
    let jobs : List Job := [{ request := {}, reply := utf8 "a" }, { request := { id := utf8 "x" }, reply := utf8 "b" }]
    ∃ p, (ofJobs (fun _ => 0) jobs).steps h [0, 0, 0, 1, 0, 0, 1, 1, 1, 1] = some p ∧ p.places ≤ 1 ∧
      p.idle = true ∧ p.seen = jobs.mapIdx h.filled ∧ p.replies = (jobs.mapIdx h.due).flatten := by
  intro h jobs
  have hidle : ((ofJobs (fun _ => 0) jobs).steps h [0, 0, 0, 1, 0, 0, 1, 1, 1, 1]).map idle = some true := by decide
  obtain ⟨p, hsteps, hdone⟩ := Option.map_eq_some_iff.mp hidle
  obtain ⟨hplaces, -, -, hall⟩ := jobs_exactly_once h (fun _ => 0) jobs _ p hsteps
  obtain ⟨-, -, -, horder⟩ := hall hdone
  obtain ⟨-, hseen, hreplies⟩ := horder rfl fun _ _ => rfl
  exact ⟨p, hsteps, Int.ofNat_le.mp (hplaces (by decide)), hdone, hseen, hreplies⟩

end Pool

end Stopwatch.Worker
