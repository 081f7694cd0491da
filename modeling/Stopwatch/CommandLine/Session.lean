import Stopwatch.Bench.Runner
import Stopwatch.Bench.Table
import Stopwatch.CommandLine.Failure

/-!
The commands that end with a report: measuring the configured programs here, and asking a service to do it.
-/

namespace Stopwatch.CommandLine

/-- What a command works with: where the settings come from and what loads them, the executors, the moment of the start
in nanoseconds, the connection that dialling would give, when the caller interrupts (before the program of that number),
and which writes to the output are refused (by their number, with the words for it). -/
structure Console (σ : Type) where
  surroundings : Settings.Surroundings := {}
  library : Settings.Library := .builtIn
  stations : List (Station σ) := []
  moment : Nat := 0
  connection : Bus.Connection := {}
  interrupted : Nat → Bool := fun _ => false
  refuses : Nat → Option Bytes := fun _ => none

/-- What a command leaves behind. -/
structure Answer where
  stdout : Bytes := []
  failure : Option Failure := none
  log : List Bytes := []

/-- The answer of a command that failed before it did anything. -/
def Answer.failed (f : Failure) : Answer := { failure := some f }

/-- The settings under the flags of a command line. -/
def Console.settings {σ : Type} (c : Console σ) (p : Flags.Parsed) : Except Failure Settings :=
  let directory := match p.get? (utf8 "config") with
    | some (.text d) => d
    | _ => []
  (Settings.load c.library c.surroundings [directory] (settingsOf p)).mapError .settings

/-- The request for the programs that a command line names. -/
def Console.request {σ : Type} (c : Console σ) (s : Settings) (names : List Bytes) : Except Failure Request :=
  match s.bench.request c.moment names with
  | (r, none) => .ok r
  | (_, some name) => .error (.unknownProgram name)

/-- Dials the servers of the settings. -/
def Console.dial {σ : Type} (c : Console σ) (s : Settings) : Except Failure Bus.Connection :=
  match Bus.addressError? s.bus.url with
  | some e => .error (.address e)
  | none => .ok c.connection

def connectedLine (s : Settings) : Bytes := Bytes.logLine (utf8 "Connected to NATS server: " ++ s.bus.url)

/-- The lines of a run, with those about publishing. -/
def journalLines (post : Result → Bus.Posting) (journal : List Event) : List Bytes := journal.filterMap fun
  | .logged line => some line
  | .published r => some (post r).log
  | .called _ _ => none

/-- The plan of a run that publishes by `post`, or not at all. -/
def planOf (workDir : Bytes) (interrupted : Nat → Bool) (post : Option (Result → Bus.Posting)) : RunPlan :=
  { workDir, interrupted
    publisher := post.map fun post _ r => (post r).failure? }

/-- The line about a program that did not succeed. -/
def troubleLine (r : Result) : Bytes :=
  r.program ++ utf8 ": " ++ r.status.text ++ utf8 ": " ++ r.error.trim

/-- Whether a report names programs that failed. -/
def hasFailed (r : Report) : Bool := !(r.failed.getD []).isEmpty

/-- Prints a report. Once it is written, programs that failed make the command fail, with a line for each of the given
troubles. -/
def Console.print {σ : Type} (c : Console σ) (report : Report) (lines : List Bytes) (troubles : List Result) : Answer :=
  let written := Table.write c.refuses report
  match written.error with
  | some text => { stdout := written.text, failure := some (.output text), log := lines }
  | none =>
    if hasFailed report then
      { stdout := written.text, failure := some .programs, log := lines ++ troubles.map troubleLine }
    else { stdout := written.text, log := lines }

/-- Measures a request here and prints the report. -/
def runRequest {σ : Type} (c : Console σ) (s : Settings) (req : Request) (post : Option (Result → Bus.Posting)) :
    Answer :=
  let run := Runner.run (planOf s.bench.workDir c.interrupted post) req { stations := c.stations }
  let lines := match post with
    | none => run.journal.filterMap Event.line?
    | some post => journalLines post run.journal
  c.print run.report lines ((run.report.results.getD []).filter fun r => r.status ≠ .success)

/-- Whether results are also published. -/
def publishes (p : Flags.Parsed) : Bool :=
  match p.get? (utf8 "publish") with
  | some (.truth b) => b
  | _ => false

/-- The command `run`. -/
def run {σ : Type} (c : Console σ) (p : Flags.Parsed) : Answer :=
  let prepared : Except Failure (Settings × Request × Option Bus.Connection) := do
    let s ← c.settings p
    let req ← c.request s p.words
    let connection ← if publishes p then (c.dial s).map some else .ok none
    .ok (s, req, connection)
  match prepared with
  | .error f => .failed f
  | .ok (s, req, none) => runRequest c s req none
  | .ok (s, req, some connection) =>
    let answer := runRequest c s req (some (Bus.publishResult connection s.bus.resultSubject))
    { answer with log := connectedLine s :: answer.log }

/-- How long the command `submit` waits for the report, in nanoseconds. -/
def patience (p : Flags.Parsed) : Int64 :=
  match p.get? (utf8 "timeout") with
  | some (.duration ns) => ns
  | _ => 120000000000

/-- The command `submit`, with a peer on the other side of the bus. -/
def submit {σ ν : Type} (c : Console σ) (peer : Bus.Peer ν) (p : Flags.Parsed) (net : ν) : Answer × ν :=
  let prepared : Except Failure (Settings × Request × Bus.Connection) := do
    let s ← c.settings p
    let req ← c.request s p.words
    let connection ← c.dial s
    .ok (s, req, connection)
  match prepared with
  | .error f => (.failed f, net)
  | .ok (s, req, connection) =>
    match Bus.submit connection peer s.bus.requestSubject req (patience p) net with
    | (.error e, net) => ({ failure := some (.request e), log := [connectedLine s] }, net)
    | (.ok report, net) => (c.print report [connectedLine s] [], net)

end Stopwatch.CommandLine
