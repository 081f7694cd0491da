import Stopwatch.Bench.Result
import Stopwatch.Settings.Basic
import Stopwatch.Worker.Stamp

/-!
Requests as jobs. What a request leaves open is filled in from the settings; the job then runs it and sends the report
to whoever asked for it.
-/

namespace Stopwatch.Worker

/-- A request and the subject that waits for its report; an empty subject waits for none. -/
structure Job where
  request : Request
  reply : Bytes
  deriving DecidableEq, Repr

/-- How long a job may take, in nanoseconds. -/
def requestTimeout : Nat := 300000000000

/-- A limit, or the configured one if it was left open. -/
def orElse (configured given : Int64) : Int64 := if given = 0 then configured else given

/-- A request with everything that it leaves open filled in; the id is for a request without one. -/
def fill (b : BenchSettings) (id : Bytes) (r : Request) : Request :=
  { id := if r.id.isEmpty then id else r.id
    programs := if r.programList.isEmpty then b.programs else r.programs
    minDurationMs := orElse b.minDurationMs r.minDurationMs
    timeLimitMs := orElse b.timeLimitMs r.timeLimitMs
    memoryLimitKb := orElse b.memoryLimitKb r.memoryLimitKb }

/-- What jobs use: the settings, and by job number the fresh ids, the reports of the runner, and the failures of the
responder if there is one. -/
structure Handler where
  settings : BenchSettings
  freshId : Nat → Bytes
  runner : Nat → Request → Report
  responder : Option (Nat → Option Bytes)

/-- The line written when a handler is made. -/
def openingLine (b : BenchSettings) : Bytes :=
  if 0 < b.maxConcurrentJobs then
    utf8 "JobHandler initialized with MaxConcurrentJobs: " ++ Integer.ofInt64 b.maxConcurrentJobs
  else
    utf8 "JobHandler initialized with unlimited concurrent jobs (MaxConcurrentJobs is "
      ++ Integer.ofInt64 b.maxConcurrentJobs ++ utf8 ")"

/-- The line written when a request was handed in. -/
def receivedLine (id : Bytes) : Bytes :=
  utf8 "JobHandler: Received RequestID: " ++ id ++ utf8 ". Queuing for Core Runner."

/-- The line written when a request has been run. -/
def finishedLine (id : Bytes) : Bytes :=
  utf8 "JobHandler: Core Runner finished processing RequestID: " ++ id ++ utf8 "."

/-- The line written when a report could not be sent. -/
def failureLine (id text : Bytes) : Bytes :=
  Bytes.logLine (utf8 "JobHandler: Failed to respond for RequestID " ++ id ++ utf8 ": " ++ text)

/-- Whether a line is about a report that could not be sent, by its words. -/
def tellsFailure (line : Bytes) : Bool := Bytes.includes (utf8 "Failed to respond") line

/-- The request that a job runs. -/
def Handler.filled (h : Handler) (number : Nat) (job : Job) : Request :=
  fill h.settings (h.freshId number) job.request

/-- Whether a job sends its report. -/
def Handler.responds (h : Handler) (job : Job) : Bool := !job.reply.isEmpty && h.responder.isSome

end Stopwatch.Worker
