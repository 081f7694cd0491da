import Stopwatch.InProcess.Executor

/-!
Calls that share one executor. They go on side by side, and the list of strays is all that they share: a call takes the
whole list over, waits for each of its kernels, starts its own, and returns with the result or leaves its kernel behind
as a stray. Calls, kernels and callers move one at a time, so that the lists of moves are all interleavings. A kernel is
known by the number of the call that starts it.
-/

namespace Stopwatch.InProcess

/-- How far a kernel has come. -/
inductive KernelStage where
  | absent
  | running
  /-- Its result is there, but not yet the news of its end. -/
  | delivered
  | finished
  deriving DecidableEq, Repr

namespace KernelStage

def next? : KernelStage → Option KernelStage
  | .running => some .delivered
  | .delivered => some .finished
  | .absent | .finished => none

/-- Whether the result of a kernel can be taken. -/
def hasResult : KernelStage → Bool
  | .delivered | .finished => true
  | .absent | .running => false

end KernelStage

/-- How far a call has come. -/
inductive CallStage where
  | arriving
  /-- It waits for strays that it has taken over, for the first of them next. -/
  | waiting (pending : List Nat)
  /-- It waits for its own kernel. -/
  | watching
  /-- It has left its kernel to the strays. -/
  | leaving
  | returned (outcome : Except Fault Sample)

namespace CallStage

/-- The strays that a call has taken over and not yet waited for. -/
def pending : CallStage → List Nat
  | .waiting pending => pending
  | _ => []

/-- Whether a call is through with its kernel, or has none to come. -/
def past : CallStage → Bool
  | .leaving | .returned _ => true
  | _ => false

def isReturned : CallStage → Bool
  | .returned _ => true
  | _ => false

end CallStage

/-- A call, with how far it and its kernel have come, whether its caller has given up, and whether its time is over. -/
structure Call where
  request : RunRequest
  stage : CallStage := .arriving
  kernel : KernelStage := .absent
  cancelled : Bool := false
  expired : Bool := false

/-- What may happen at a call. -/
inductive Turn where
  /-- It goes on, if what it waits for is there. -/
  | proceed
  /-- It stops waiting, if its caller has given up or its time is over. -/
  | giveUp
  /-- Its caller gives up. -/
  | cancel
  /-- Its time is over. -/
  | expire
  /-- Its kernel goes on. -/
  | kernel
  deriving DecidableEq, Repr

namespace Call

/-- A call that goes on, with the strays after it. `busy` is how long its kernel takes. -/
def proceed (busy : Nat) (isFinished : Nat → Bool) (stray : List Nat) (c : Call) : Option (Call × List Nat) :=
  match c.stage with
  | .arriving =>
    match resultFor c.request with
    | .error fault => some ({ c with stage := .returned (.error fault) }, stray)
    | .ok _ => some ({ c with stage := .waiting stray }, [])
  | .waiting [] => some ({ c with stage := .watching, kernel := .running }, stray)
  | .waiting (first :: rest) => if isFinished first then some ({ c with stage := .waiting rest }, stray) else none
  | .watching =>
    if c.kernel.hasResult then
      some ({ c with stage := .returned ((resultFor c.request).map (outcomeOf busy)) }, stray)
    else none
  | .leaving =>
    let outcome := if c.cancelled then .error .canceled else .ok (timedOut c.request.timeLimitMs)
    some ({ c with stage := .returned outcome }, stray)
  | .returned _ => none

/-- A call that stops waiting, with the strays after it. What it has not waited for goes back to them. -/
def giveUp (number : Nat) (stray : List Nat) (c : Call) : Option (Call × List Nat) :=
  match c.stage with
  | .waiting (first :: rest) =>
    if c.cancelled then some ({ c with stage := .returned (.error .canceled) }, stray ++ first :: rest) else none
  | .watching =>
    if c.cancelled || c.expired then some ({ c with stage := .leaving }, stray ++ [number]) else none
  | _ => none

/-- A call after a turn, with the strays after it. -/
def take (number busy : Nat) (isFinished : Nat → Bool) (stray : List Nat) (c : Call) :
    Turn → Option (Call × List Nat)
  | .proceed => c.proceed busy isFinished stray
  | .giveUp => c.giveUp number stray
  | .cancel => some ({ c with cancelled := true }, stray)
  | .expire =>
    match c.stage with
    | .watching => if 0 < c.request.timeLimitMs then some ({ c with expired := true }, stray) else none
    | _ => none
  | .kernel => c.kernel.next?.map fun kernel => ({ c with kernel }, stray)

end Call

/-- An executor in use: its calls by number, and the strays. -/
structure Shared where
  calls : List Call
  stray : List Nat := []

/-- A turn of a call. -/
structure Move where
  number : Nat
  turn : Turn
  deriving DecidableEq, Repr

namespace Shared

/-- An executor to which requests are on their way. -/
def ofRequests (requests : List RunRequest) : Shared := { calls := requests.map fun request => { request } }

/-- Whether the end of a kernel is known. -/
def isFinished (s : Shared) (number : Nat) : Bool :=
  match s.calls[number]? with
  | some c => c.kernel == .finished
  | none => false

/-- The executor after a move, if the move is possible. `busy` tells how long the kernel of each call takes. -/
def step (busy : Nat → Nat) (s : Shared) (m : Move) : Option Shared :=
  match s.calls[m.number]? with
  | none => none
  | some c =>
    (c.take m.number (busy m.number) s.isFinished s.stray m.turn).map fun (c, stray) =>
      { calls := s.calls.set m.number c, stray }

/-- The executor after a list of moves, if all of them are possible. -/
def steps (busy : Nat → Nat) (s : Shared) : List Move → Option Shared
  | [] => some s
  | m :: rest => (s.step busy m).bind fun t => steps busy t rest

end Shared

end Stopwatch.InProcess
