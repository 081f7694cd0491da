import Stopwatch.Executor.Basic
import Stopwatch.Kernel.Basic

/-!
The executor inside the harness: a command names a kernel, which runs next to the caller. A kernel cannot be stopped, so
one that outlives its time limit or its caller is left behind as a stray, and the next call waits for the strays before
it starts a kernel of its own.
-/

namespace Stopwatch.InProcess

/-- The clock, in nanoseconds, and the moments at which the strays finish. -/
structure State where
  now : Nat := 0
  stray : List Nat := []
  deriving DecidableEq, Repr, Inhabited

/-- Waits for strays in order. Gives the moment at which all have finished, or the moment at which the caller gave up
with the strays not waited for. -/
def waitStrays (quit : Option Nat) : Nat → List Nat → Except (Nat × List Nat) Nat
  | now, [] => .ok now
  | now, finish :: rest =>
    if finish ≤ now then waitStrays quit now rest
    else
      match quit with
      | none => waitStrays quit finish rest
      | some q => if q < finish then .error (max now q, finish :: rest) else waitStrays quit finish rest

/-- The moment at which a run that starts now hits its time limit. -/
def deadline? (now : Nat) (limitMs : Int64) : Option Int :=
  if 0 < limitMs then some (now + (nanoseconds limitMs).toInt) else none

/-- The earlier of two moments, where absent means never. -/
def earlier? (a b : Option Int) : Option Int :=
  match a, b with
  | none, x => x
  | x, none => x
  | some x, some y => some (min x y)

/-- What a kernel that ran to its end shows. -/
def outcomeOf (duration : Nat) : Except Kernel.Error Bytes → Sample
  | .ok out => { stdout := out, timeMs := Float.ofNat (duration / 1000) / 1000 }
  | .error e =>
    { status := .runtimeError
      stderr := e.message
      exitCode := 1
      timeMs := Float.ofNat (duration / 1000) / 1000 }

/-- What a kernel that hit its time limit shows. -/
def timedOut (limitMs : Int64) : Sample :=
  { status := .timeLimitExceeded, exitCode := -1, timeMs := limitMs.toFloat }

/-- The fault of a name that no kernel carries. -/
def unknownKernel (name : Bytes) : Fault := .failed .badCommand (utf8 "unknown kernel " ++ quote name) none

/-- What the kernel of a request computes, or the fault of a request that names none. -/
def resultFor (req : RunRequest) : Except Fault (Except Kernel.Error Bytes) :=
  match req.words with
  | [] => .error .emptyCommand
  | name :: args =>
    match Kernel.find? name with
    | none => .error (unknownKernel name)
    | some kernel => .ok (kernel args)

/-- One call. `duration` tells how long each command keeps its kernel busy, and `quit` when the caller gives up. -/
def call (duration : List Bytes → Nat) (quit : Option Nat) (s : State) (req : RunRequest) : Attempt State :=
  match resultFor req with
  | .error fault => { outcome := .error fault, state := s }
  | .ok result =>
    match waitStrays quit s.now s.stray with
    | .error (now, kept) => { outcome := .error .canceled, state := { now, stray := kept }, elapsed := now - s.now }
    | .ok start =>
      let busy := duration req.words
      let finish := start + busy
      let stop := earlier? (quit.map fun q => (q : Int)) (deadline? start req.timeLimitMs)
      match stop with
      | some moment =>
        if (finish : Int) ≤ moment then
          { outcome := .ok (outcomeOf busy result), state := { now := finish }, elapsed := finish - s.now }
        else
          let now := max start moment.toNat
          let gaveUp := match quit with
            | some q => decide (q ≤ now)
            | none => false
          { outcome := if gaveUp then .error .canceled else .ok (timedOut req.timeLimitMs)
            state := { now, stray := [finish] }
            elapsed := now - s.now }
      | none =>
        { outcome := .ok (outcomeOf busy result), state := { now := finish }, elapsed := finish - s.now }

/-- A call to come: what it asks for, and when its caller gives up. -/
structure Visit where
  request : RunRequest
  quit : Option Nat := none
  deriving Inhabited

/-- One call after the other. -/
def session (duration : List Bytes → Nat) (s : State) : List Visit → List (Attempt State)
  | [] => []
  | v :: rest =>
    let attempt := call duration v.quit s v.request
    attempt :: session duration attempt.state rest

/-- The moment at which a caller gives up that has done so before a call, or never does. -/
def quitAt (cancelled : Bool) : Option Nat := if cancelled then some 0 else none

/-- The nanoseconds that the Fibonacci kernel takes: two for each call that it makes, and some to be set going. -/
def pace : List Bytes → Nat
  | [_, text] =>
    match Integer.read text with
    | .ok n => 100000 + if 0 ≤ n ∧ n ≤ Fibonacci.maxIndex then 2 * Fibonacci.calls n.toNatClampNeg else 0
    | .error _ => 100000
  | _ => 100000

/-- The executor that runs kernels, for callers that have given up before a call or never do. -/
def executor (duration : List Bytes → Nat) : Executor State :=
  { id := ExecutorKind.inprocess.id
    execute := fun cancelled s req => call duration (quitAt cancelled) s req }

end Stopwatch.InProcess
