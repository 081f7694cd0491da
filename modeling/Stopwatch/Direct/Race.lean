import Stopwatch.Direct.Timeline
import Stopwatch.Executor.Basic

/-!
The race for the verdict on a process. The process ends by itself or is killed with its group. A monitor looks at its
memory; if there is too much, it raises a flag and then kills the group. The clock and the caller may end the wait. The
waiting side takes what comes first, the end or the stop, and looks at the flag twice: when it judges the end, and when it
answers. The steps of all of them may come in any order.
-/

namespace Stopwatch.Direct.Race

/-- What the wait for a process brings. -/
inductive Waited where
  /-- The process ended well, and nobody held its outputs open for long. -/
  | clean
  /-- The process failed with a code, which is -1 after a signal. -/
  | failed (code : Int64)
  /-- The process ended well, but its outputs stayed open. -/
  | outlived
  deriving DecidableEq, Repr

/-- What the wait brings after an end. Of an exit code the system keeps eight bits. -/
def Waited.ofEnding (ending : Ending) (outlives : Bool) : Waited :=
  match ending with
  | .exited code =>
    if code % 256 = 0 then if outlives then .outlived else .clean else .failed (Int64.ofNat (code % 256))
  | .signaled _ => .failed (-1)

/-- What a verdict rests on. -/
inductive Basis where
  /-- What the wait brought, and whether the flag was up when that was judged. -/
  | ended (waited : Waited) (early : Bool)
  /-- The wait was stopped, perhaps by the caller. -/
  | stopped (gaveUp : Bool)
  deriving DecidableEq, Repr

/-- The fault of outputs that stay open. -/
def outlivedFault : Fault :=
  .failed .wait (utf8 "command wait failed with unexpected error")
    (some (utf8 "exec: WaitDelay expired before I/O complete"))

/-- The status and the exit code that follow, before the last look at the flag. -/
def Basis.judgement : Basis → Except Fault (Status × Int64)
  | .ended .clean _ => .ok (.success, 0)
  | .ended _ true => .ok (.memoryLimitExceeded, -1)
  | .ended (.failed code) false => .ok (.runtimeError, code)
  | .ended .outlived false => .error outlivedFault
  | .stopped true => .error .canceled
  | .stopped false => .ok (.timeLimitExceeded, -1)

/-- What is said about a process in the end. -/
structure Verdict where
  status : Status
  exitCode : Int64
  memoryKb : Int64
  deriving DecidableEq, Repr

/-- The answer, given what the flag shows last and the most memory that was seen. -/
def Basis.answer (basis : Basis) (late : Bool) (peak : UInt64) : Except Fault Verdict :=
  basis.judgement.map fun (status, exitCode) =>
    { status := if late then .memoryLimitExceeded else status
      exitCode
      memoryKb := Int64.ofNat (peak.toNat / 1024) }

/-- What the monitor is about to do. -/
inductive Monitor where
  | watching
  /-- It has seen too much and is about to raise the flag. -/
  | alarmed
  /-- It has raised the flag and is about to kill. -/
  | raised
  | gone
  deriving DecidableEq, Repr

/-- How far the waiting side is. -/
inductive Stage where
  | waiting
  | received (waited : Waited)
  /-- It has killed the group and waits for the end. -/
  | stopping
  | judged (basis : Basis)
  | answered (basis : Basis) (late : Bool) (peak : UInt64)
  deriving DecidableEq, Repr

/-- All that take part. -/
structure State where
  /-- What the wait brings, once the process has ended. -/
  process : Option Waited := none
  /-- Whether the process has left its group. -/
  apart : Bool := false
  monitor : Monitor := .watching
  flagged : Bool := false
  /-- The most octets that were seen. -/
  peak : UInt64 := 0
  expired : Bool := false
  gaveUp : Bool := false
  stage : Stage := .waiting
  deriving DecidableEq, Repr

/-- A step of one of them. -/
inductive Event where
  /-- The monitor sees so many octets. -/
  | read (rss : UInt64)
  | raise
  | kill
  /-- The monitor is told that the wait is over. -/
  | leave
  /-- The process leaves its group. -/
  | depart
  /-- The process ends by itself. -/
  | exit (ending : Ending) (outlives : Bool)
  /-- The time limit is over. -/
  | expire
  /-- The caller gives up. -/
  | giveUp
  | receive
  | stop
  | drain
  | judge
  | answer
  deriving DecidableEq, Repr

/-- The peak after one more look. -/
def higher (peak rss : UInt64) : UInt64 := if peak < rss then rss else peak

/-- Kills the group: a process in it that has not ended yet does so now. -/
def State.killed (s : State) : State :=
  if s.apart then s else { s with process := s.process.or (some (.failed (-1))) }

/-- One step, if it can be taken. -/
def step (req : RunRequest) (s : State) : Event → Option State
  | .read rss =>
    if s.monitor = .watching then
      some { s with
        peak := higher s.peak rss
        monitor := if exceeds req.memoryLimitKb rss then .alarmed else .watching }
    else none
  | .raise => if s.monitor = .alarmed then some { s with monitor := .raised, flagged := true } else none
  | .kill => if s.monitor = .raised then some { s.killed with monitor := .gone } else none
  | .leave => if s.monitor = .watching && s.stage ≠ .waiting then some { s with monitor := .gone } else none
  | .depart => if s.process = none then some { s with apart := true } else none
  | .exit ending outlives =>
    if s.process = none then some { s with process := some (.ofEnding ending outlives) } else none
  | .expire => if 0 < req.timeLimitMs then some { s with expired := true } else none
  | .giveUp => some { s with gaveUp := true }
  | .receive =>
    match s.stage, s.process with
    | .waiting, some waited => some { s with stage := .received waited }
    | _, _ => none
  | .stop => if s.stage = .waiting && (s.expired || s.gaveUp) then some { s.killed with stage := .stopping } else none
  | .drain => if s.stage = .stopping && s.process.isSome then some { s with stage := .judged (.stopped s.gaveUp) } else none
  | .judge =>
    match s.stage with
    | .received waited => some { s with stage := .judged (.ended waited s.flagged) }
    | _ => none
  | .answer =>
    match s.stage with
    | .judged basis => some { s with stage := .answered basis s.flagged s.peak }
    | _ => none

/-- Steps one after the other, if all of them can be taken. -/
def run (req : RunRequest) (s : State) (events : List Event) : Option State := events.foldlM (step req) s

/-- The answer, once it is there. -/
def State.answer? (s : State) : Option (Except Fault Verdict) :=
  match s.stage with
  | .answered basis late peak => some (basis.answer late peak)
  | _ => none

end Stopwatch.Direct.Race
