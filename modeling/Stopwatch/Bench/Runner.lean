import Stopwatch.Bench.Measure
import Stopwatch.Number.Layout

/-!
Running a request: its programs are measured one after the other, each result is published as soon as it is there, and
once the caller gives up the remaining programs count as failed. The journal lists what happened in order.
-/

namespace Stopwatch

/-- An executor with its word and its state. -/
structure Station (σ : Type) where
  kind : Bytes
  executor : Executor σ
  state : σ

/-- What a run does that others can see. -/
inductive Event where
  | called (kind : Bytes) (request : RunRequest)
  | published (result : Result)
  | logged (line : Bytes)

namespace Event

def call? : Event → Option (Bytes × RunRequest)
  | .called kind request => some (kind, request)
  | _ => none

def result? : Event → Option Result
  | .published r => some r
  | _ => none

def line? : Event → Option Bytes
  | .logged l => some l
  | _ => none

/-- Whether an event is more than a line of the log. -/
def isAct : Event → Bool
  | .logged _ => false
  | _ => true

/-- A message that goes to the log. -/
def log (message : Bytes) : Event := .logged (Bytes.logLine message)

end Event

/-- What a run needs to know besides the request: the directory of the programs, how publishing goes (the failure of a
result, by its number), and when the caller gives up from outside (before the program of that number). -/
structure RunPlan where
  workDir : Bytes := []
  publisher : Option (Nat → Result → Option Bytes) := none
  interrupted : Nat → Bool := fun _ => false

namespace Runner

/-- The command that each run of a program executes. -/
def runRequest (workDir : Bytes) (req : Request) (p : Program) : RunRequest :=
  { requestId := req.id
    program := p.name
    command := p.command
    workDir
    timeLimitMs := req.timeLimitMs
    memoryLimitKb := req.memoryLimitKb }

/-- The state of a run between programs. -/
structure State (σ : Type) where
  stations : List (Station σ)
  cancelled : Bool := false

/-- The station of a kind. -/
def State.station? {σ : Type} (s : State σ) (kind : Bytes) : Option (Station σ) :=
  s.stations.find? fun st => st.kind == kind

/-- A station put to use. -/
def State.session {σ : Type} (s : State σ) (station : Station σ) : Measure.Session σ :=
  { state := station.state, cancelled := s.cancelled }

/-- Puts a new state into the station of a kind. -/
def setState {σ : Type} (kind : Bytes) (state : σ) (stations : List (Station σ)) : List (Station σ) :=
  stations.map fun s => if s.kind == kind then { s with state } else s

/-- Measures one program at the station that its executor word selects. -/
def measure {σ : Type} (plan : RunPlan) (req : Request) (p : Program) (s : State σ) :
    Result × State σ × List Event :=
  match s.station? p.kind with
  | none =>
    ({ requestId := req.id
       program := p.name
       status := .internalError
       error := utf8 "no executor " ++ quote p.kind ++ utf8 " for program " ++ p.name }, s, [])
  | some station =>
    let run := runRequest plan.workDir req p
    let (ending, progress, session) :=
      Measure.repeatRuns station.executor run p.expectOutput (nanoseconds req.minDurationMs).toInt
        Measure.mostRuns (s.session station) {}
    let calls := session.calls.reverse.map (Event.called p.kind)
    let trouble := ending.fault.toList.map fun fault => Event.log
      (utf8 "[" ++ station.executor.id ++ utf8 "] Execution error for program " ++ p.name ++ utf8 ": "
        ++ fault.message)
    (Measure.conclude req.id p.name ending progress,
      { stations := setState p.kind session.state s.stations, cancelled := session.cancelled },
      calls ++ trouble)

/-- The line that reports the result of a program. -/
def resultLine (requestId : Bytes) (p : Program) (r : Result) : Bytes :=
  utf8 "Result for program " ++ p.name ++ utf8 ", RequestID " ++ requestId ++ utf8 ": Status=" ++ r.status.text
    ++ utf8 ", Samples=" ++ Integer.ofInt64 r.samples ++ utf8 ", Mean=" ++ Layout.fixed 1 r.meanMs ++ utf8 "ms, Mem="
    ++ Integer.ofInt64 r.peakMemoryKb ++ utf8 "kB"

/-- What publishing a result adds to the journal. -/
def publish (plan : RunPlan) (number : Nat) (p : Program) (r : Result) : List Event :=
  match plan.publisher with
  | none => []
  | some failure =>
    .published r :: ((failure number r).toList.map fun text =>
      Event.log (utf8 "Error publishing result for program " ++ p.name ++ utf8 ": " ++ text))

/-- What a run has brought so far, the latest first. -/
structure Gathered where
  results : List Result := []
  /-- The means of the results that are successes. -/
  means : List Float := []
  failed : List Bytes := []
  journal : List (List Event) := []

/-- Runs the programs in order; the number is that of the first of them. -/
def runPrograms {σ : Type} (plan : RunPlan) (req : Request) :
    List Program → Nat → State σ → Gathered → Gathered × State σ
  | [], _, s, g => (g, s)
  | p :: rest, number, s, g =>
    if s.cancelled || plan.interrupted number then
      runPrograms plan req rest (number + 1) { s with cancelled := true }
        { g with
          failed := p.name :: g.failed
          journal := [.log (utf8 "RequestID " ++ req.id ++ utf8 " cancelled before program " ++ p.name
            ++ utf8 ": " ++ canceledText)] :: g.journal }
    else
      let (result, s, events) := measure plan req p s
      let events := events ++ publish plan g.results.length p result ++ [.log (resultLine req.id p result)]
      runPrograms plan req rest (number + 1) s
        { results := result :: g.results
          means := if result.status = .success then result.meanMs :: g.means else g.means
          failed := if result.status = .success then g.failed else p.name :: g.failed
          journal := events :: g.journal }

/-- A finished run. -/
structure Run (σ : Type) where
  report : Report
  journal : List Event
  state : State σ

/-- Runs a request. -/
def run {σ : Type} (plan : RunPlan) (req : Request) (s : State σ) : Run σ :=
  let (g, s) := runPrograms plan req req.programList 0 s {}
  let results := g.results.reverse
  let scoreMs := Stats.geometricMean g.means.reverse
  { report :=
      { requestId := req.id, results := someIfAny results, scoreMs, failed := someIfAny g.failed.reverse }
    journal :=
      .log (utf8 "Processing RequestID: " ++ req.id ++ utf8 ", " ++ Integer.ofNat req.programList.length
          ++ utf8 " programs")
        :: (g.journal.reverse.flatten
          ++ [.log (utf8 "Finished processing RequestID: " ++ req.id ++ utf8 ", Score: " ++ Layout.fixed 1 scoreMs
            ++ utf8 "ms")])
    state := s }

end Runner

end Stopwatch
