import Stopwatch.CommandLine.Session
import Stopwatch.Worker.Pool

/-!
The command that stays: a service that runs the requests it gets over the bus, publishes each result, and answers whoever
waits for the report. Each message is a job of a pool, and what the service does is read off the acts of that pool.
-/

namespace Stopwatch.CommandLine

/-- What came of one message: the results that were published, the reports that were sent, and the lines. -/
structure Handled where
  published : List (Bytes × Result) := []
  replies : List (Bytes × Report) := []
  log : List Bytes := []

/-- A service that listens. What it did holds the latest first. -/
structure Service (σ : Type) where
  settings : Settings
  connection : Bus.Connection
  runner : Runner.State σ
  moment : Nat
  handled : List Handled := []

/-- The command `serve` up to the point where it listens. -/
def serve {σ : Type} (c : Console σ) (p : Flags.Parsed) : Except Failure (Service σ) := do
  let settings ← c.settings p
  let connection ← c.dial settings
  let subject := settings.bus.requestSubject
  match connection.subscribe subject settings.bus.queueGroup with
  | .error e => .error (.subscription subject e)
  | .ok () => .ok { settings, connection, runner := { stations := c.stations }, moment := c.moment }

namespace Service

/-- How the service publishes a result. -/
def post {σ : Type} (s : Service σ) : Result → Bus.Posting := Bus.publishResult s.connection s.settings.bus.resultSubject

/-- Measures a request with the executors as they are now. -/
def measure {σ : Type} (s : Service σ) (req : Request) : Runner.Run σ :=
  Runner.run (planOf s.settings.bench.workDir (fun _ => false) (some s.post)) req s.runner

/-- The handler of a job: the runner measures its request, and the responder sends the report over the bus. -/
def handler {σ : Type} (s : Service σ) (job : Worker.Job) : Worker.Handler :=
  let id := Stamp.ofNanoseconds s.moment
  let report := (s.measure (Worker.fill s.settings.bench id job.request)).report
  { settings := s.settings.bench
    freshId := fun _ => id
    runner := fun _ req => (s.measure req).report
    responder := some fun _ => (Bus.respond s.connection job.reply report).failure? }

/-- What an act of the pool means for the service and for what is to be seen of it. -/
def perform {σ : Type} : Service σ × Handled → Worker.Act → Service σ × Handled
  | (s, seen), .called _ req =>
    let run := s.measure req
    let published := (run.journal.filterMap Event.result?).filter fun r => (s.post r).failure?.isNone
    ({ s with runner := run.state },
      { seen with
        published := seen.published ++ published.map fun r => (s.settings.bus.resultSubject, r)
        log := seen.log ++ journalLines s.post run.journal })
  | (s, seen), .responded number id reply failure =>
    (s,
      { seen with
        replies := seen.replies ++ if failure.isNone then [(reply.subject, reply.report)] else []
        log := seen.log ++ (Bus.respond s.connection reply.subject reply.report).log ::
          (Worker.Act.responded number id reply failure).line?.toList })
  | (s, seen), act => (s, { seen with log := seen.log ++ act.line?.toList })

/-- Runs a request and answers it, as the one job of a pool. -/
def handle {σ : Type} (s : Service σ) (req : Request) (reply : Bytes) : Service σ :=
  let job : Worker.Job := { request := req, reply }
  let pool := ((Worker.Pool.ofJobs (fun _ => 0) [job]).drain (s.handler job)).1
  let (t, seen) := pool.history.reverse.foldl perform (s, {})
  { t with handled := seen :: t.handled }

/-- Takes a message. One that holds no request changes nothing. -/
def receive {σ : Type} (s : Service σ) (d : Bus.Delivery) : Service σ :=
  match d.request? with
  | none => s
  | some (req, reply) => s.handle req reply

/-- Whether the service gets the messages on a subject. -/
def hears {σ : Type} (s : Service σ) (subject : Bytes) : Bool :=
  Bus.subjectCovers s.settings.bus.requestSubject subject

/-- The subject on which a peer waits for its answer. -/
def inbox : Bytes := utf8 "_INBOX.1"

/-- The service as the other side of a request. -/
def peer {σ : Type} : Bus.Peer (Service σ) := fun s m =>
  if !s.hears m.subject then (.error .noResponders, s)
  else
    let before := s.handled.length
    let s := s.receive { payload := m.payload, reply := inbox }
    let sent := (s.handled.take (s.handled.length - before)).flatMap Handled.replies
    match sent with
    | (_, report) :: _ =>
      match report.encode with
      | .ok payload => (.ok payload, s)
      | .error _ => (.error .timeout, s)
    | [] => (.error .timeout, s)

end Service

end Stopwatch.CommandLine
