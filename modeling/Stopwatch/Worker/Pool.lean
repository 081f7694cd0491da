import Stopwatch.Worker.Handler

/-!
The pool of jobs. Callers hand in their jobs one after the other; a call returns once its job has a place in the pool,
and the job then runs and answers beside all others. The pool moves by steps of single jobs, so that the lists of job
numbers are all interleavings, and `drain` follows the one in which a job enters as soon as it can and the oldest job
moves first.
-/

namespace Stopwatch.Worker

/-- A report sent to a subject. -/
structure Reply where
  subject : Bytes
  report : Report

/-- What a job does that others can see. -/
inductive Act where
  /-- A request with this id was handed in. -/
  | received (number : Nat) (id : Bytes)
  /-- The runner was called. -/
  | called (number : Nat) (request : Request)
  /-- The runner returned. -/
  | returned (number : Nat) (id : Bytes)
  /-- The responder was called, and perhaps failed. -/
  | responded (number : Nat) (id : Bytes) (reply : Reply) (failure : Option Bytes)

namespace Act

/-- The job that acts. -/
def number : Act → Nat
  | .received n _ | .called n _ | .returned n _ | .responded n _ _ _ => n

def request? : Act → Option Request
  | .called _ request => some request
  | _ => none

def reply? : Act → Option Reply
  | .responded _ _ reply _ => some reply
  | _ => none

/-- The line that an act leaves in the log. -/
def line? : Act → Option Bytes
  | .received _ id => some (receivedLine id)
  | .called _ _ => none
  | .returned _ id => some (finishedLine id)
  | .responded _ id _ failure => failure.map (failureLine id)

end Act

/-- How far a job has come, with what it carries along. -/
inductive Stage where
  /-- Its caller has not come to it yet. -/
  | queued
  /-- It was handed in, and the call waits for a place. -/
  | blocked (request : Request)
  /-- It has a place, and the call has returned. -/
  | admitted (request : Request)
  /-- The runner works on it. -/
  | running (request : Request)
  /-- The runner is through with it. -/
  | reported (request : Request) (report : Report)
  /-- It has given its place back. -/
  | done

namespace Stage

/-- Whether a job has not entered the pool. -/
def outside : Stage → Bool
  | .queued | .blocked _ => true
  | _ => false

/-- Whether a job has a place in the pool. -/
def placed : Stage → Bool
  | .admitted _ | .running _ | .reported _ _ => true
  | _ => false

def isDone : Stage → Bool
  | .done => true
  | _ => false

end Stage

/-- The call of the responder for a job, if anyone waits for its report. -/
def Handler.answer (h : Handler) (number : Nat) (job : Job) (id : Bytes) (report : Report) : List Act :=
  match h.responder with
  | none => []
  | some failure =>
    if job.reply.isEmpty then [] else [.responded number id { subject := job.reply, report } (failure number)]

/-- The next stage of a job, with what others see of the way there. -/
def Handler.advance (h : Handler) (number : Nat) (job : Job) : Stage → Option (Stage × List Act)
  | .queued =>
    let request := h.filled number job
    some (.blocked request, [.received number request.id])
  | .blocked request => some (.admitted request, [])
  | .admitted request => some (.running request, [.called number request])
  | .running request => some (.reported request (h.runner number request), [.returned number request.id])
  | .reported request report => some (.done, h.answer number job request.id report)
  | .done => none

/-- A job with the caller that hands it in. -/
structure Task where
  job : Job
  caller : Nat
  stage : Stage := .queued

/-- A pool at work: the jobs by number, and what happened, the latest first. -/
structure Pool where
  tasks : List Task
  history : List Act := []

namespace Pool

/-- A pool to which callers bring jobs; `caller` tells by whom a job is brought. -/
def ofJobs (caller : Nat → Nat) (jobs : List Job) : Pool :=
  { tasks := jobs.mapIdx fun i job => { job, caller := caller i } }

/-- The number of jobs that have a place. -/
def places (p : Pool) : Nat := p.tasks.countP fun t => t.stage.placed

/-- Whether one more job may have a place. -/
def hasRoom (limit : Int64) (p : Pool) : Bool := decide (limit ≤ 0) || decide ((p.places : Int) < limit.toInt)

/-- Whether a caller is through with its calls for the jobs before a number. -/
def callerFree (p : Pool) (number caller : Nat) : Bool :=
  (p.tasks.take number).all fun t => t.caller != caller || !t.stage.outside

/-- Whether a job need not wait: for its caller before it is handed in, for a place after that. -/
def allows (h : Handler) (p : Pool) (number : Nat) (t : Task) : Bool :=
  match t.stage with
  | .queued => p.callerFree number t.caller
  | .blocked _ => p.hasRoom h.settings.maxConcurrentJobs
  | _ => true

/-- The pool after a step of one job, if the step is possible. -/
def step (h : Handler) (p : Pool) (number : Nat) : Option Pool :=
  match p.tasks[number]? with
  | none => none
  | some t =>
    if p.allows h number t then
      (h.advance number t.job t.stage).map fun (stage, acts) =>
        { tasks := p.tasks.set number { t with stage }, history := acts.reverse ++ p.history }
    else none

/-- The pool after a list of steps, if all of them are possible. -/
def steps (h : Handler) (p : Pool) : List Nat → Option Pool
  | [] => some p
  | number :: rest => (p.step h number).bind fun q => steps h q rest

/-- Whether all jobs are done, which is what waiting for the pool waits for. -/
def idle (p : Pool) : Bool := p.tasks.all fun t => t.stage.isDone

/-- The requests that the runner got, in order. -/
def seen (p : Pool) : List Request := p.history.reverse.filterMap Act.request?

/-- The reports that the responder got, in order. -/
def replies (p : Pool) : List Reply := p.history.reverse.filterMap Act.reply?

/-- The lines of the log, in order. -/
def log (p : Pool) : List Bytes := p.history.reverse.filterMap Act.line?

/-- The job that moves next in the plain schedule. -/
def next? (h : Handler) (p : Pool) : Option Nat :=
  let possible := (List.range p.tasks.length).filter fun number => (p.step h number).isSome
  (possible.find? fun number => (p.tasks[number]?).any fun t => t.stage.outside).or possible.head?

/-- Follows the plain schedule for a number of steps, and tells the most jobs that had a place at once. -/
def follow (h : Handler) : Nat → Pool → Nat → Pool × Nat
  | 0, p, most => (p, most)
  | n + 1, p, most =>
    match (p.next? h).bind (p.step h) with
    | none => (p, most)
    | some q => follow h n q (max most q.places)

/-- Runs all jobs by the plain schedule; none takes more than five steps. -/
def drain (h : Handler) (p : Pool) : Pool × Nat := follow h (5 * p.tasks.length) p p.places

end Pool

end Stopwatch.Worker
