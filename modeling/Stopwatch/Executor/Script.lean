import Stopwatch.Executor.Basic

/-!
Executors that play a script: each call takes the next step, and a call after the last step is a fault. They stand in
for real executors where the outcome of every call is to be chosen.
-/

namespace Stopwatch.Script

/-- What a step brings. -/
inductive Answer where
  | sample (s : Sample)
  | fault (f : Fault)
  /-- The fault of giving up if the caller has given up, else another one. -/
  | ifCanceled (otherwise : Fault)

/-- One step of a script: the time it takes, whether the caller gives up meanwhile, what it brings. -/
structure Step where
  sleepMs : Nat := 0
  cancels : Bool := false
  answer : Answer

/-- The fault of a script that has no step left. -/
def exhausted : Fault := .plain (utf8 "script exhausted")

/-- The outcome of a step, given whether the caller has given up by its end. -/
def Answer.outcome (cancelled : Bool) : Answer → Except Fault Sample
  | .sample s => .ok s
  | .fault f => .error f
  | .ifCanceled otherwise => .error (if cancelled then .canceled else otherwise)

/-- Plays the next step. -/
def execute (cancelled : Bool) (steps : List Step) (_ : RunRequest) : Attempt (List Step) :=
  match steps with
  | [] => { outcome := .error exhausted, state := [] }
  | step :: rest =>
    { outcome := step.answer.outcome (cancelled || step.cancels)
      state := rest
      elapsed := step.sleepMs * 1000000
      cancels := step.cancels }

/-- The executor of a kind that plays a script. -/
def executor (kind : Bytes) : Executor (List Step) := { id := kind ++ utf8 "_scripted", execute }

end Stopwatch.Script
