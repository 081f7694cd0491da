import Stopwatch.Direct.Race
import Stopwatch.Host.Launch

/-!
The executor that starts a process on the host. The process and all that it started are killed when it uses too much
memory, when its time is up, and when the caller gives up; otherwise its end is waited for, and after it a little longer
for outputs that somebody else still holds open.
-/

namespace Stopwatch.Direct

/-- How long outputs may stay open after the end of the process. -/
def pipeDelay : Nat := 500000000

/-- What a process is started with: its words, its directory, and the moment after which nobody looks. -/
structure Start where
  words : List Bytes
  workDir : Bytes
  horizon : Option Nat

/-- The earlier of two moments, where absent means never. -/
def sooner (a b : Option Nat) : Option Nat :=
  match a, b with
  | none, x => x
  | x, none => x
  | some x, some y => some (min x y)

/-- The moment at which a time limit is hit. -/
def deadline? (limitMs : Int64) : Option Nat :=
  if 0 < limitMs then some (nanoseconds limitMs).toInt.toNat else none

/-- When waiting for a process is over, if it is left alone: at its end, or when its outputs are closed, but no later
than the delay after its end. -/
def waitEnd (t : Timeline) : Option Nat :=
  t.exit.map fun (moment, _) =>
    match t.closed with
    | none => moment + pipeDelay
    | some closed => max moment (min closed (moment + pipeDelay))

/-- Whether the outputs stay open too long after the end. -/
def outlived (t : Timeline) : Bool :=
  match t.exit, t.closed with
  | some (moment, _), some closed => moment + pipeDelay < closed
  | some _, none => true
  | none, _ => false

/-- The milliseconds of a span, to the microsecond. -/
def milliseconds (ns : Int) : Float := Float.ofInt (ns.tdiv 1000) / 1000

/-- The longest span that is shown for a run that hits its limit. It is as long as the word for it says, which may be
below zero. -/
def longest (limitMs : Int64) : Int := (nanoseconds limitMs + Int64.ofNat pipeDelay).toInt

/-- Whether a moment comes before another, where absent means never. -/
def isBefore (a : Option Nat) (b : Option Nat) : Bool :=
  match a, b with
  | some x, some y => x < y
  | some _, none => true
  | none, _ => false

/-- How the race goes when everything happens at its moment: the steps, the moment of the answer, and the span that is
shown as the time of the run. -/
structure Course where
  events : List Race.Event
  moment : Nat
  shown : Int

/-- How a process ends by itself, and whether its outputs outlive it. An end beyond all limits may be of any kind. -/
def ending (t : Timeline) : Ending × Bool :=
  match t.exit with
  | some (_, ending) => (ending, outlived t)
  | none => (.signaled 9, false)

/-- Whether too much memory is seen before anything stops the wait. -/
def isFlagged (t : Timeline) (stop : Option Nat) (limitKb : Int64) : Bool :=
  isBefore (t.firstExcess limitKb) stop && isBefore (t.firstExcess limitKb) (waitEnd t)

/-- The steps of the process and the monitor while nothing else happens, the last look being at a moment. -/
def watch (t : Timeline) (limitKb : Int64) (flagged : Bool) (last : Option Nat) : List Race.Event :=
  (if t.apart then [.depart] else []) ++ (t.readings limitKb last).map .read ++
    if flagged then (t.firstOver limitKb).toList.map (fun look => .read look.2) ++ [.raise, .kill] else []

/-- The course along the life of a process. `quit` is when the caller gives up. -/
def course (t : Timeline) (quit : Option Nat) (req : RunRequest) : Course :=
  let wait := waitEnd t
  let deadline := deadline? req.timeLimitMs
  let stop := sooner quit deadline
  let flagged := isFlagged t stop req.memoryLimitKb
  let excess := t.firstExcess req.memoryLimitKb
  let watched := watch t req.memoryLimitKb flagged
    (if flagged then excess else if isBefore stop wait then stop else wait)
  let finish := Race.Event.exit (ending t).1 (ending t).2
  if flagged && !t.apart then
    let moment := excess.getD 0
    { events := watched ++ [.receive, .judge, .answer], moment, shown := moment }
  else if isBefore stop wait then
    let stopped := stop.getD 0
    let moment := if t.apart then wait.getD stopped else stopped
    { events := watched ++ [if quit.any (· ≤ stopped) then .giveUp else .expire, .stop] ++
        (if t.apart then [finish] else []) ++ (if quit.any (· ≤ moment) then [.giveUp] else []) ++ [.drain, .answer]
      moment
      shown := if deadline.isSome then min (moment : Int) (longest req.timeLimitMs) else moment }
  else
    let moment := wait.getD 0
    { events := watched ++ if wait.isSome then [finish, .receive, .judge, .answer] else [], moment, shown := moment }

/-- What a run shows after a verdict: what was written by then, and how long it took. -/
def sample (t : Timeline) (c : Course) (v : Race.Verdict) : Sample :=
  { status := v.status
    exitCode := v.exitCode
    stdout := t.written .out (some c.moment)
    stderr := t.written .err (some c.moment)
    timeMs := milliseconds c.shown
    memoryKb := v.memoryKb }

/-- The outcome of a process and the moment at which it is known. Without any answer the caller would wait for ever. -/
def verdict (t : Timeline) (quit : Option Nat) (req : RunRequest) : Except Fault Sample × Nat :=
  let c := course t quit req
  let answer := ((Race.run req {} c.events).bind Race.State.answer?).getD (.error .canceled)
  (answer.map (sample t c), c.moment)

/-- The fault of a command that could not be started. -/
def startFault (e : Host.StartError) : Fault := .failed .start (utf8 "failed to start command") (some e.message)

/-- A host with a state: starts a process, and says what it did and what became of the host. -/
abbrev Spawn (σ : Type) := σ → Start → Except Host.StartError (Timeline × σ)

/-- One call, on a host that starts processes: the outcome, how long it took, and the host afterwards. -/
def call {σ : Type} (spawn : Spawn σ) (quit : Option Nat) (state : σ) (req : RunRequest) :
    Except Fault Sample × Nat × σ :=
  if req.words.isEmpty then (.error .emptyCommand, 0, state)
  else
    let horizon := sooner quit (deadline? req.timeLimitMs)
    match spawn state { words := req.words, workDir := req.workDir, horizon } with
    | .error e => (.error (startFault e), 0, state)
    | .ok (t, state) =>
      let (outcome, elapsed) := verdict t quit req
      (outcome, elapsed, state)

/-- The executor of a host, for callers that have given up before a call or never do. -/
def executor {σ : Type} (spawn : Spawn σ) : Executor σ :=
  { id := ExecutorKind.direct.id
    execute := fun cancelled state req =>
      let (outcome, elapsed, state) := call spawn (if cancelled then some 0 else none) state req
      { outcome, state, elapsed } }

end Stopwatch.Direct
