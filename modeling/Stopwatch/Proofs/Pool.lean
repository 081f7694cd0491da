import Mathlib.Data.List.Basic
import Stopwatch.Worker.Pool

/-!
What the pool keeps to in every interleaving. A step moves one job along its course and leaves the others alone, so that
the history is always an interleaving of the courses, cut off at the stages of the jobs. The limit holds because a job
enters only where there is room, and the order of a pool with one place because nobody enters before it is free.
-/

namespace Stopwatch.Worker

/-! ### The request of a job -/

/-- How a value comes from one that may be left open: it is the given one, or the configured one in place of a gap. -/
def Completes {α : Type} (gap : Prop) (given configured result : α) : Prop :=
  (¬ gap → result = given) ∧ (gap → result = configured)

theorem completes_iff {α : Type} {gap : Prop} [Decidable gap] {given configured result : α} :
    Completes gap given configured result ↔ result = if gap then configured else given := by
  by_cases hgap : gap
  · simp [Completes, hgap]
  · simp [Completes, hgap]

/-- A value that is configured so wherever it is a gap needs no completion. -/
theorem Completes.self {α : Type} {gap : Prop} {given configured : α} (h : gap → given = configured) :
    Completes gap given configured given := ⟨fun _ => rfl, h⟩

/-- A request comes from another by filling in what that one leaves open, field by field: the id with a fresh one, the rest
from the settings. What is given is kept. -/
structure Fills (b : BenchSettings) (fresh : Bytes) (given result : Request) : Prop where
  id : Completes (given.id = []) given.id fresh result.id
  programs : Completes (given.programList = []) given.programs b.programs result.programs
  minDurationMs : Completes (given.minDurationMs = 0) given.minDurationMs b.minDurationMs result.minDurationMs
  timeLimitMs : Completes (given.timeLimitMs = 0) given.timeLimitMs b.timeLimitMs result.timeLimitMs
  memoryLimitKb : Completes (given.memoryLimitKb = 0) given.memoryLimitKb b.memoryLimitKb result.memoryLimitKb

/-- That is what `fill` does, and nothing else is. -/
theorem fills_iff {b : BenchSettings} {fresh : Bytes} {given result : Request} :
    Fills b fresh given result ↔ result = fill b fresh given := by
  constructor
  · rintro ⟨hid, hprograms, hduration, htime, hmemory⟩
    rw [completes_iff] at hid hprograms hduration htime hmemory
    cases result
    simp only at hid hprograms hduration htime hmemory
    simp only [fill, orElse, List.isEmpty_iff, hid, hprograms, hduration, htime, hmemory]
  · rintro rfl
    constructor <;> rw [completes_iff] <;> simp only [fill, orElse, List.isEmpty_iff]

/-! ### One step, and many -/

namespace Pool

/-- The pool after a step of a task to a stage. -/
def put (p : Pool) (number : Nat) (t : Task) (stage : Stage) (acts : List Act) : Pool :=
  { tasks := p.tasks.set number { t with stage }, history := acts.reverse ++ p.history }

/-- What a step is: some job moves on, and may. -/
theorem step_eq_some {h : Handler} {p q : Pool} {number : Nat} (hstep : p.step h number = some q) :
    ∃ t stage acts, p.tasks[number]? = some t ∧ p.allows h number t = true ∧
      h.advance number t.job t.stage = some (stage, acts) ∧ q = p.put number t stage acts := by
  rw [step] at hstep
  cases ht : p.tasks[number]? with
  | none => simp [ht] at hstep
  | some t =>
    rw [ht] at hstep
    by_cases hallows : p.allows h number t = true
    · simp only [hallows, if_true] at hstep
      obtain ⟨⟨stage, acts⟩, hadvance, rfl⟩ := Option.map_eq_some_iff.mp hstep
      exact ⟨t, stage, acts, rfl, hallows, hadvance, rfl⟩
    · simp [hallows] at hstep

/-- What every step keeps, every schedule keeps. -/
theorem steps_induction {h : Handler} {Inv : Pool → Prop}
    (hstep : ∀ p q number, Inv p → p.step h number = some q → Inv q) :
    ∀ (schedule : List Nat) (p q : Pool), Inv p → p.steps h schedule = some q → Inv q
  | [], p, q, hp, hq => by
    rw [steps, Option.some.injEq] at hq
    exact hq ▸ hp
  | number :: rest, p, q, hp, hq => by
    rw [steps, Option.bind_eq_some_iff] at hq
    obtain ⟨r, hr, hrest⟩ := hq
    exact steps_induction hstep rest r q (hstep p r number hp hr) hrest

/-- A step replaces the task that moves. -/
theorem tasks_put_eq_some {p : Pool} {number i : Nat} {t u : Task} {stage : Stage} {acts : List Act}
    (ht : p.tasks[number]? = some t) (hu : (p.put number t stage acts).tasks[i]? = some u) :
    (number = i ∧ { t with stage } = u) ∨ (number ≠ i ∧ p.tasks[i]? = some u) := by
  by_cases hi : number = i
  · subst hi
    rw [put, List.getElem?_set_self (List.getElem?_eq_some_iff.mp ht).1, Option.some.injEq] at hu
    exact Or.inl ⟨rfl, hu⟩
  · rw [put, List.getElem?_set_ne hi] at hu
    exact Or.inr ⟨hi, hu⟩

end Pool

/-! ### The course of a job -/

/-- All that a job does: it is received and run once, and its report is sent once if anyone waits for it. -/
def Handler.course (h : Handler) (number : Nat) (job : Job) : List Act :=
  let request := h.filled number job
  [.received number request.id, .called number request, .returned number request.id] ++
    h.answer number job request.id (h.runner number request)

/-- Whether a job at a stage carries what it should and has done what it should. -/
def Handler.OnCourse (h : Handler) (number : Nat) (job : Job) : Stage → List Act → Prop
  | .queued, acts => acts = []
  | .blocked request, acts | .admitted request, acts =>
    request = h.filled number job ∧ acts = (h.course number job).take 1
  | .running request, acts => request = h.filled number job ∧ acts = (h.course number job).take 2
  | .reported request report, acts =>
    request = h.filled number job ∧ report = h.runner number request ∧ acts = (h.course number job).take 3
  | .done, acts => acts = h.course number job

/-- The ways in which a job moves on. -/
inductive Handler.Moves (h : Handler) (number : Nat) (job : Job) : Stage → Stage → List Act → Prop where
  | receive : h.Moves number job .queued (.blocked (h.filled number job)) [.received number (h.filled number job).id]
  | enter (request : Request) : h.Moves number job (.blocked request) (.admitted request) []
  | start (request : Request) : h.Moves number job (.admitted request) (.running request) [.called number request]
  | finish (request : Request) : h.Moves number job (.running request) (.reported request (h.runner number request))
      [.returned number request.id]
  | leave (request : Request) (report : Report) : h.Moves number job (.reported request report) .done
      (h.answer number job request.id report)

/-- There are no others. -/
theorem Handler.moves_of_advance {h : Handler} {number : Nat} {job : Job} {stage next : Stage} {acts : List Act}
    (hadvance : h.advance number job stage = some (next, acts)) : h.Moves number job stage next acts := by
  cases stage <;> simp only [Handler.advance, Option.some.injEq, Prod.mk.injEq, reduceCtorEq] at hadvance <;>
    obtain ⟨rfl, rfl⟩ := hadvance
  · exact .receive
  · exact .enter _
  · exact .start _
  · exact .finish _
  · exact .leave _ _

/-- A step of a job stays on its course. -/
theorem Handler.OnCourse.advance {h : Handler} {number : Nat} {job : Job} {stage next : Stage} {acts new : List Act}
    (hon : h.OnCourse number job stage acts) (hadvance : h.advance number job stage = some (next, new)) :
    h.OnCourse number job next (acts ++ new) := by
  cases Handler.moves_of_advance hadvance with
  | receive =>
    rw [show acts = [] from hon]
    exact ⟨rfl, rfl⟩
  | enter request =>
    rw [List.append_nil]
    exact hon
  | start request =>
    obtain ⟨rfl, rfl⟩ := hon
    exact ⟨rfl, rfl⟩
  | finish request =>
    obtain ⟨rfl, rfl⟩ := hon
    exact ⟨rfl, rfl, rfl⟩
  | leave request report =>
    obtain ⟨rfl, rfl, rfl⟩ := hon
    rfl

theorem answer_number {h : Handler} {number : Nat} {job : Job} {id : Bytes} {report : Report} :
    ∀ a ∈ h.answer number job id report, a.number = number := by
  intro a ha
  rw [Handler.answer] at ha
  cases hr : h.responder with
  | none => simp [hr] at ha
  | some failure =>
    rw [hr] at ha
    by_cases he : job.reply.isEmpty = true
    · simp [he] at ha
    · simp only [he, Bool.false_eq_true, if_false, List.mem_singleton] at ha
      rw [ha]; rfl

/-- What others see of a step is the work of the job that makes it. -/
theorem advance_number {h : Handler} {number : Nat} {job : Job} {stage next : Stage} {acts : List Act}
    (hadvance : h.advance number job stage = some (next, acts)) : ∀ a ∈ acts, a.number = number := by
  intro a ha
  cases Handler.moves_of_advance hadvance with
  | receive => rw [List.mem_singleton.mp ha]; rfl
  | enter request => exact absurd ha List.not_mem_nil
  | start request => rw [List.mem_singleton.mp ha]; rfl
  | finish request => rw [List.mem_singleton.mp ha]; rfl
  | leave request report => exact answer_number a ha

/-! ### The history in every interleaving -/

namespace Pool

/-- What one job did, in order. -/
def actsOf (p : Pool) (number : Nat) : List Act := p.history.reverse.filter fun a => a.number == number

theorem actsOf_put_self {p : Pool} {number : Nat} {acts : List Act} (hacts : ∀ a ∈ acts, a.number = number)
    (t : Task) (stage : Stage) : (p.put number t stage acts).actsOf number = p.actsOf number ++ acts := by
  have hself : acts.filter (fun a => a.number == number) = acts :=
    List.filter_eq_self.mpr fun a ha => by simp [hacts a ha]
  simp [actsOf, put, hself]

theorem actsOf_put_of_ne {p : Pool} {number i : Nat} {acts : List Act} (hacts : ∀ a ∈ acts, a.number = number)
    (hne : number ≠ i) (t : Task) (stage : Stage) : (p.put number t stage acts).actsOf i = p.actsOf i := by
  have hnone : acts.filter (fun a => a.number == i) = [] :=
    List.filter_eq_nil_iff.mpr fun a ha => by simp [hacts a ha, hne]
  simp [actsOf, put, hnone]

/-- A pool in which jobs that callers brought have kept to their courses, and nobody else has acted. -/
structure Regular (h : Handler) (caller : Nat → Nat) (jobs : List Job) (p : Pool) : Prop where
  length : p.tasks.length = jobs.length
  origin : ∀ i t, p.tasks[i]? = some t → jobs[i]? = some t.job ∧ t.caller = caller i
  onCourse : ∀ i t, p.tasks[i]? = some t → h.OnCourse i t.job t.stage (p.actsOf i)
  known : ∀ a ∈ p.history, a.number < jobs.length

theorem regular_ofJobs (h : Handler) (caller : Nat → Nat) (jobs : List Job) :
    Regular h caller jobs (ofJobs caller jobs) where
  length := by simp [ofJobs]
  origin := by
    intro i t ht
    simp only [ofJobs, List.getElem?_mapIdx, Option.map_eq_some_iff] at ht
    obtain ⟨job, hjob, rfl⟩ := ht
    exact ⟨hjob, rfl⟩
  onCourse := by
    intro i t ht
    simp only [ofJobs, List.getElem?_mapIdx, Option.map_eq_some_iff] at ht
    obtain ⟨job, -, rfl⟩ := ht
    rfl
  known := fun a ha => absurd ha List.not_mem_nil

theorem Regular.step {h : Handler} {caller : Nat → Nat} {jobs : List Job} {p q : Pool} {number : Nat}
    (hp : Regular h caller jobs p) (hstep : p.step h number = some q) : Regular h caller jobs q := by
  obtain ⟨t, stage, acts, ht, -, hadvance, rfl⟩ := step_eq_some hstep
  have hacts := advance_number hadvance
  have hlt := (List.getElem?_eq_some_iff.mp ht).1
  refine ⟨by rw [put, List.length_set, hp.length], fun i u hu => ?_, fun i u hu => ?_, fun a ha => ?_⟩
  · rcases tasks_put_eq_some ht hu with ⟨rfl, rfl⟩ | ⟨-, hu⟩
    · exact hp.origin number t ht
    · exact hp.origin i u hu
  · rcases tasks_put_eq_some ht hu with ⟨rfl, rfl⟩ | ⟨hi, hu⟩
    · rw [actsOf_put_self hacts]
      exact (hp.onCourse number t ht).advance hadvance
    · rw [actsOf_put_of_ne hacts hi]
      exact hp.onCourse i u hu
  · rcases List.mem_append.mp ha with ha | ha
    · rw [hacts a (List.mem_reverse.mp ha), ← hp.length]
      exact hlt
    · exact hp.known a ha

theorem regular_steps {h : Handler} {caller : Nat → Nat} {jobs : List Job} {schedule : List Nat} {p : Pool}
    (hsteps : (ofJobs caller jobs).steps h schedule = some p) : Regular h caller jobs p :=
  steps_induction (fun _ _ _ hp hq => hp.step hq) schedule _ p (regular_ofJobs h caller jobs) hsteps

/-! ### The limit -/

/-- Only a job that waits for a place gets one, and only if there is room. -/
theorem placed_advance {h : Handler} {p : Pool} {number : Nat} {t : Task} {stage : Stage} {acts : List Act}
    (hallows : p.allows h number t = true) (hadvance : h.advance number t.job t.stage = some (stage, acts))
    (hplaced : stage.placed = true) :
    t.stage.placed = true ∨ p.hasRoom h.settings.maxConcurrentJobs = true := by
  rw [allows] at hallows
  generalize t.stage = old at *
  cases Handler.moves_of_advance hadvance with
  | receive => exact absurd hplaced Bool.false_ne_true
  | enter request => exact Or.inr hallows
  | start request => exact Or.inl rfl
  | finish request => exact Or.inl rfl
  | leave request report => exact absurd hplaced Bool.false_ne_true

theorem places_put {p : Pool} {number : Nat} {t : Task} (ht : p.tasks[number]? = some t) (stage : Stage)
    (acts : List Act) : (p.put number t stage acts).places + (if t.stage.placed then 1 else 0) =
      p.places + if stage.placed then 1 else 0 := by
  obtain ⟨hlt, hget⟩ := List.getElem?_eq_some_iff.mp ht
  have hcount : (if t.stage.placed then 1 else 0) ≤ p.places := by
    split
    · next hp => exact List.countP_pos_iff.mpr ⟨t, List.mem_of_getElem? ht, hp⟩
    · exact Nat.zero_le _
  rw [put, places, List.countP_set hlt, hget, ← places]
  simp only
  omega

/-- A step keeps the number of jobs that have a place within the limit. -/
theorem places_step {h : Handler} {p q : Pool} {number : Nat} (hlimit : 0 < h.settings.maxConcurrentJobs)
    (hp : (p.places : Int) ≤ h.settings.maxConcurrentJobs.toInt) (hstep : p.step h number = some q) :
    (q.places : Int) ≤ h.settings.maxConcurrentJobs.toInt := by
  obtain ⟨t, stage, acts, ht, hallows, hadvance, rfl⟩ := step_eq_some hstep
  have hcount := places_put ht stage acts
  by_cases hplaced : stage.placed = true
  · rcases placed_advance hallows hadvance hplaced with hold | hroom
    · simp only [hplaced, hold, if_true] at hcount
      omega
    · have hpositive : ¬ h.settings.maxConcurrentJobs ≤ 0 := Int64.not_le.mpr hlimit
      simp only [hasRoom, hpositive, decide_false, Bool.false_or, decide_eq_true_eq] at hroom
      simp only [hplaced, if_true] at hcount
      split at hcount <;> omega
  · simp only [hplaced, Bool.false_eq_true, if_false] at hcount
    split at hcount <;> omega

theorem places_ofJobs (caller : Nat → Nat) (jobs : List Job) : (ofJobs caller jobs).places = 0 := by
  rw [places, List.countP_eq_zero]
  intro t ht
  obtain ⟨i, hi, rfl⟩ := List.mem_mapIdx.mp ht
  exact Bool.false_ne_true

theorem places_le_limit {h : Handler} {caller : Nat → Nat} {jobs : List Job} {schedule : List Nat} {p : Pool}
    (hlimit : 0 < h.settings.maxConcurrentJobs) (hsteps : (ofJobs caller jobs).steps h schedule = some p) :
    (p.places : Int) ≤ h.settings.maxConcurrentJobs.toInt := by
  have hzero : ((ofJobs caller jobs).places : Int) ≤ h.settings.maxConcurrentJobs.toInt := by
    rw [places_ofJobs]
    exact Int.le_of_lt (Int64.lt_iff_toInt_lt.mp hlimit)
  exact steps_induction (fun _ _ _ hp hq => places_step hlimit hp hq) schedule _ p hzero hsteps

/-! ### One caller and one place -/

/-- A pool in which jobs are handed in one after the other, and enter only when those before them are done. -/
structure InOrder (p : Pool) : Prop where
  entered : ∀ (i j : Nat) (t u : Task), i < j → p.tasks[i]? = some t → p.tasks[j]? = some u → u.stage ≠ .queued →
    t.stage.outside = false
  finished : ∀ (i j : Nat) (t u : Task), i < j → p.tasks[i]? = some t → p.tasks[j]? = some u → u.stage.outside = false →
    t.stage = .done

theorem inOrder_ofJobs (caller : Nat → Nat) (jobs : List Job) : InOrder (ofJobs caller jobs) := by
  have hqueued : ∀ (i : Nat) (t : Task), (ofJobs caller jobs).tasks[i]? = some t → t.stage = .queued := by
    intro i t ht
    simp only [ofJobs, List.getElem?_mapIdx, Option.map_eq_some_iff] at ht
    obtain ⟨job, -, rfl⟩ := ht
    rfl
  refine ⟨fun i j t u _ _ hu hne => absurd (hqueued j u hu) hne, fun i j t u _ _ hu hin => ?_⟩
  rw [hqueued j u hu] at hin
  exact absurd hin (by decide)

theorem eq_done_of_isDone {stage : Stage} (hdone : stage.isDone = true) : stage = .done := by
  cases stage <;> first | rfl | exact absurd hdone Bool.false_ne_true

/-- A job that is neither outside nor done has a place. -/
theorem stage_eq_done {stage : Stage} (hinside : stage.outside = false) (hplace : stage.placed = false) :
    stage = .done := by
  cases stage <;> simp_all [Stage.outside, Stage.placed]

/-- A step leads away from the beginning, and never out of the pool. -/
theorem advance_stage {h : Handler} {number : Nat} {job : Job} {stage next : Stage} {acts : List Act}
    (hadvance : h.advance number job stage = some (next, acts)) :
    stage ≠ .done ∧ next ≠ .queued ∧ (stage.outside = false → next.outside = false) ∧
      (stage = .queued → next.outside = true) := by
  cases Handler.moves_of_advance hadvance <;> simp [Stage.outside]

/-- In a pool of one place, nobody has it while there is room. -/
theorem not_placed_of_room {p : Pool} (hroom : p.hasRoom 1 = true) {i : Nat} {t : Task}
    (ht : p.tasks[i]? = some t) : t.stage.placed = false := by
  have hnone : p.places = 0 := by
    have h1 : ¬ (1 : Int64) ≤ 0 := by decide
    simp only [hasRoom, h1, decide_false, Bool.false_or, decide_eq_true_eq] at hroom
    have h2 : (1 : Int64).toInt = 1 := by decide
    omega
  rw [places, List.countP_eq_zero] at hnone
  simpa using hnone t (List.mem_of_getElem? ht)

theorem InOrder.step {h : Handler} {caller : Nat → Nat} {jobs : List Job} {p q : Pool} {number : Nat}
    (hlimit : h.settings.maxConcurrentJobs = 1) (hcaller : ∀ i j, caller i = caller j)
    (hregular : Regular h caller jobs p) (hp : InOrder p) (hstep : p.step h number = some q) : InOrder q := by
  obtain ⟨t, stage, acts, ht, hallows, hadvance, rfl⟩ := step_eq_some hstep
  obtain ⟨hnotDone, hnotQueued, hinside, hqueued⟩ := advance_stage hadvance
  -- the jobs before the one that moves have entered, be it because its caller came to it or by what held before
  have hbefore : ∀ i u, i < number → p.tasks[i]? = some u → u.stage.outside = false := by
    intro i u hi hu
    by_cases hs : t.stage = .queued
    · rw [allows, hs] at hallows
      have hmem : u ∈ p.tasks.take number := by
        rw [List.mem_iff_getElem?]
        exact ⟨i, by rw [List.getElem?_take_of_lt hi, hu]⟩
      have hfree := List.all_eq_true.mp hallows u hmem
      have hsame : u.caller = t.caller := by
        rw [(hregular.origin i u hu).2, (hregular.origin number t ht).2, hcaller]
      simpa [hsame] using hfree
    · exact hp.entered i number u t hi hu ht hs
  refine ⟨fun i j u v hij hu hv hne => ?_, fun i j u v hij hu hv hin => ?_⟩
  · rcases tasks_put_eq_some ht hv with ⟨rfl, rfl⟩ | ⟨-, hv⟩ <;>
      rcases tasks_put_eq_some ht hu with ⟨rfl, rfl⟩ | ⟨-, hu⟩
    · omega
    · exact hbefore i u hij hu
    · exact hinside (hp.entered number j t v hij ht hv hne)
    · exact hp.entered i j u v hij hu hv hne
  · rcases tasks_put_eq_some ht hv with ⟨rfl, rfl⟩ | ⟨-, hv⟩ <;>
      rcases tasks_put_eq_some ht hu with ⟨rfl, rfl⟩ | ⟨-, hu⟩
    · omega
    · cases hs : t.stage with
      | queued => exact absurd ((hqueued hs).symm.trans hin) (by decide)
      | blocked request =>
        -- it gets the only place, so nobody before it has one
        rw [allows, hs, hlimit] at hallows
        exact stage_eq_done (hbefore i u hij hu) (not_placed_of_room hallows hu)
      | admitted request => exact hp.finished i number u t hij hu ht (by rw [hs]; rfl)
      | running request => exact hp.finished i number u t hij hu ht (by rw [hs]; rfl)
      | reported request report => exact hp.finished i number u t hij hu ht (by rw [hs]; rfl)
      | done => exact absurd hs hnotDone
    · exact absurd (hp.finished number j t v hij ht hv hin) hnotDone
    · exact hp.finished i j u v hij hu hv hin

end Pool

end Stopwatch.Worker
