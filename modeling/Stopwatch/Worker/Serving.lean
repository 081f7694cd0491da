import Stopwatch.Bus.Connection
import Stopwatch.Worker.Pool

/-!
A pool that is fed by a subscription, up to its end. The bus brings messages to the subscriber one at a time; the
subscriber reads the request in a message, hands it in, and is busy until the job has a place. The shutdown ends the
subscription, which keeps further messages away but not the one that the subscriber is busy with, then closes the pool
and waits for it, and at last drains the connection. A closed pool takes nobody in: a call that still waits for a place,
or comes later, ends the whole process as soon as it moves on, with all that the process was busy with.
-/

namespace Stopwatch.Worker

/-- How far the shutdown has come. -/
inductive Phase where
  | listening
  | unsubscribed
  /-- The pool is closed: no job gets a place any more, and those that have one are waited for. -/
  | closing
  | waited
  | drained
  deriving DecidableEq, Repr

namespace Phase

/-- Whether jobs still get places. -/
def isOpen : Phase → Bool
  | .listening | .unsubscribed => true
  | _ => false

/-- Whether the pool was waited for. -/
def isOver : Phase → Bool
  | .waited | .drained => true
  | _ => false

end Phase

/-- What may happen to a service. -/
inductive Incident where
  /-- The bus brings a message. -/
  | deliver (d : Bus.Delivery)
  /-- The subscriber reads its message, and hands the request in if there is one. -/
  | read
  /-- A job moves on, or the call that hands it in. -/
  | work (number : Nat)
  /-- The shutdown goes on. -/
  | shutDown

/-- A service: its pool, the message that the subscriber has before it, how far the shutdown has come, and whether the
process was ended by a call to the closed pool. -/
structure Serving where
  pool : Pool := { tasks := [] }
  message : Option Bus.Delivery := none
  phase : Phase := .listening
  crashed : Bool := false

/-- The pool with one more job on its way. -/
def Pool.expect (p : Pool) (job : Job) : Pool := { p with tasks := p.tasks ++ [{ job, caller := 0 }] }

/-- The pool after a job was handed in by the subscriber, which is the only caller. -/
def Pool.handIn (h : Handler) (p : Pool) (job : Job) : Option Pool := (p.expect job).step h p.tasks.length

namespace Serving

/-- Whether the subscriber can take a message. -/
def isFree (s : Serving) : Bool := s.message.isNone && s.pool.tasks.all fun t => !t.stage.outside

/-- Whether the subscriber is busy with a request: reads one, or waits for a place for it. -/
def holdsRequest (s : Serving) : Bool :=
  s.message.any (fun d => d.request?.isSome) || s.pool.tasks.any fun t => t.stage.outside

/-- The next phase of the shutdown, if it is its time. -/
def nextPhase? (s : Serving) : Option Phase :=
  match s.phase with
  | .listening => some .unsubscribed
  | .unsubscribed => some .closing
  | .closing => if s.pool.places = 0 then some .waited else none
  | .waited => some .drained
  | .drained => none

/-- A living service after an incident, if it is possible. -/
def after (h : Handler) (s : Serving) : Incident → Option Serving
  | .deliver d => if s.phase = .listening ∧ s.isFree then some { s with message := some d } else none
  | .read =>
    match s.message with
    | none => none
    | some d =>
      match d.request? with
      | none => some { s with message := none }
      | some (request, reply) =>
        (s.pool.handIn h { request, reply }).map fun pool => { s with pool, message := none }
  | .work number =>
    match s.pool.tasks[number]? with
    | none => none
    | some t =>
      if s.phase.isOpen || !t.stage.outside then (s.pool.step h number).map fun pool => { s with pool }
      else some { s with crashed := true }
  | .shutDown => s.nextPhase?.map fun phase => { s with phase }

/-- The service after an incident, if it is possible. Nothing happens to a process that has ended. -/
def step (h : Handler) (s : Serving) (e : Incident) : Option Serving := if s.crashed then none else s.after h e

/-- The service after a list of incidents, if all of them are possible. -/
def steps (h : Handler) (s : Serving) : List Incident → Option Serving
  | [] => some s
  | e :: rest => (s.step h e).bind fun t => steps h t rest

end Serving

end Stopwatch.Worker
