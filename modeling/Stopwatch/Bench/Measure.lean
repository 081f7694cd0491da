import Stopwatch.Bench.Output
import Stopwatch.Bench.Stats
import Stopwatch.Executor.Basic
import Stopwatch.Number.Integer

/-!
Measuring one program: it is run again and again until a least duration has passed, at least once, and the first run
that fails or prints the wrong output ends the measurement.
-/

namespace Stopwatch.Measure

/-- What the runs of a program have shown so far; the latest time comes first. -/
structure Progress where
  times : List Float := []
  output : Bytes := []
  peakMemoryKb : Int64 := 0

/-- Why a measurement ended, with the fault of the executor if that ended it. The status `running` says that its time
was up. -/
structure Ending where
  status : Status
  error : Bytes
  fault : Option Fault := none
  deriving DecidableEq, Repr

/-- The ending of a measurement whose time is up. -/
def timeUp : Ending := { status := .running, error := [] }

/-- The ending that an outcome forces, if it forces one. -/
def judge (expected : Bytes) : Except Fault Sample → Option Ending
  | .error fault =>
    some { status := .internalError, error := utf8 "execution failed: " ++ fault.message, fault := some fault }
  | .ok sample =>
    if sample.status ≠ .success then
      some { status := sample.status
             error := if sample.stderr.isEmpty then sample.status.text else sample.stderr }
    else if outputMatches sample.stdout expected then none
    else
      some { status := .wrongOutput
             error := utf8 "expected " ++ quote expected.trim ++ utf8 ", got " ++ quote sample.stdout.trim }

/-- The output and the peak of memory after one more outcome. -/
def Progress.note (p : Progress) : Except Fault Sample → Progress
  | .error _ => p
  | .ok sample =>
    { p with
      output := sample.stdout.trim
      peakMemoryKb := max p.peakMemoryKb sample.memoryKb }

/-- The time of an accepted outcome, put to the others. -/
def Progress.addTime (p : Progress) : Except Fault Sample → Progress
  | .error _ => p
  | .ok sample => { p with times := sample.timeMs :: p.times }

/-- An executor in use: its state, whether the caller has given up, the time since the start, and the calls made, the
latest first. -/
structure Session (σ : Type) where
  state : σ
  cancelled : Bool := false
  elapsed : Nat := 0
  calls : List RunRequest := []

/-- The next call of an executor in use. -/
def Session.attempt {σ : Type} (ex : Executor σ) (req : RunRequest) (s : Session σ) : Attempt σ :=
  ex.execute s.cancelled s.state req

/-- The session after one more attempt. -/
def Session.after {σ : Type} (req : RunRequest) (s : Session σ) (a : Attempt σ) : Session σ :=
  { state := a.state
    cancelled := s.cancelled || a.cancels
    elapsed := s.elapsed + a.elapsed
    calls := req :: s.calls }

/-- The most runs that one measurement makes: no run takes less than a nanosecond, and no least duration is longer than
so many of them. -/
def mostRuns : Nat := Nat.pow 2 63 - 1

/-- Runs a command until an outcome or the clock ends the measurement. The first argument bounds the runs. -/
def repeatRuns {σ : Type} (ex : Executor σ) (req : RunRequest) (expected : Bytes) (least : Int) :
    Nat → Session σ → Progress → Ending × Progress × Session σ
  | 0, session, progress => (timeUp, progress, session)
  | budget + 1, session, progress =>
    let attempt := session.attempt ex req
    let session := session.after req attempt
    let progress := progress.note attempt.outcome
    match judge expected attempt.outcome with
    | some ending => (ending, progress, session)
    | none =>
      let progress := progress.addTime attempt.outcome
      if least ≤ session.elapsed then (timeUp, progress, session)
      else repeatRuns ex req expected least budget session progress

/-- The result of a measurement: statistics belong to one whose time was up. -/
def conclude (requestId program : Bytes) (ending : Ending) (progress : Progress) : Result :=
  let times := progress.times.reverse
  let base : Result :=
    { requestId, program
      status := ending.status
      samples := Int64.ofNat times.length
      peakMemoryKb := progress.peakMemoryKb
      output := progress.output
      error := ending.error }
  if ending.status = .running then
    { base with
      status := .success
      meanMs := Stats.geometricMean (Stats.trimEnds times)
      minMs := (Stats.range times).1
      maxMs := (Stats.range times).2 }
  else base

end Stopwatch.Measure
