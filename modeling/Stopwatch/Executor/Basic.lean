import Stopwatch.Bench.Result
import Stopwatch.Text.Quoted

/-!
Executors: ways to run a command once. A call yields a sample, or a fault of the executor itself, and leaves the
executor in a new state after some time on the clock.
-/

namespace Stopwatch

/-- A command to run once, with its limits. -/
structure RunRequest where
  requestId : Bytes := []
  program : Bytes := []
  command : Option (List Bytes) := none
  workDir : Bytes := []
  timeLimitMs : Int64 := 0
  memoryLimitKb : Int64 := 0
  deriving DecidableEq, Repr, Inhabited

/-- The words of the command. -/
def RunRequest.words (r : RunRequest) : List Bytes := r.command.getD []

/-- What one run of a command showed. -/
structure Sample where
  status : Status := .success
  stdout : Bytes := []
  stderr : Bytes := []
  exitCode : Int64 := 0
  timeMs : Float := 0
  memoryKb : Int64 := 0
  deriving Repr, Inhabited

/-- The kinds of trouble that executors report. -/
inductive FaultKind where
  | start
  | wait
  | badCommand
  | unknownExecutor
  | other (label : Bytes)
  deriving DecidableEq, Repr

/-- The word for a kind of trouble. -/
def FaultKind.label : FaultKind → Bytes
  | .start => utf8 "COMMAND_START_ERROR"
  | .wait => utf8 "COMMAND_WAIT_ERROR"
  | .badCommand => utf8 "BAD_COMMAND"
  | .unknownExecutor => utf8 "UNKNOWN_EXECUTOR"
  | .other label => label

/-- Why a call of an executor gave no sample. -/
inductive Fault where
  /-- The caller gave up. -/
  | canceled
  /-- Trouble of a known kind, perhaps with what lies behind it. -/
  | failed (kind : FaultKind) (text : Bytes) (cause : Option Bytes)
  /-- Any other trouble. -/
  | plain (text : Bytes)
  deriving DecidableEq, Repr

/-- The words for giving up. -/
def canceledText : Bytes := utf8 "context canceled"

def Fault.message : Fault → Bytes
  | .canceled => canceledText
  | .failed kind text none => text ++ utf8 " (type: " ++ kind.label ++ utf8 ")"
  | .failed kind text (some cause) => text ++ utf8 ": " ++ cause ++ utf8 " (type: " ++ kind.label ++ utf8 ")"
  | .plain text => text

/-- The fault of a request without a command. -/
def Fault.emptyCommand : Fault := .failed .badCommand (utf8 "empty command") none

/-- One call of an executor: its outcome, the state it left, the nanoseconds it took, and whether the caller gave up
meanwhile. -/
structure Attempt (σ : Type) where
  outcome : Except Fault Sample
  state : σ
  elapsed : Nat := 0
  cancels : Bool := false

/-- A way to run commands. The first argument of `execute` tells whether the caller has already given up. -/
structure Executor (σ : Type) where
  id : Bytes
  execute : Bool → σ → RunRequest → Attempt σ

/-- The built-in ways to run commands. -/
inductive ExecutorKind where
  | direct
  | inprocess
  | isolate
  deriving DecidableEq, Repr

namespace ExecutorKind

/-- The word that selects an executor. -/
def label : ExecutorKind → Bytes
  | .direct => utf8 "direct"
  | .inprocess => utf8 "inprocess"
  | .isolate => utf8 "isolate"

/-- The name of an executor in log lines. -/
def id : ExecutorKind → Bytes
  | .direct => utf8 "direct_executor_v1"
  | .inprocess => utf8 "inprocess_executor_v1"
  | .isolate => utf8 "isolate_executor_v1"

def all : List ExecutorKind := [.direct, .inprocess, .isolate]

/-- The executor that a word selects. -/
def ofLabel (word : Bytes) : Except Fault ExecutorKind :=
  match all.find? fun k => k.label == word with
  | some k => .ok k
  | none => .error (.failed .unknownExecutor (utf8 "unknown executor " ++ quote word) none)

end ExecutorKind

/-- The executor word that a program means; no word means a process of its own. -/
def Program.kind (p : Program) : Bytes :=
  if p.executor.isEmpty then ExecutorKind.direct.label else p.executor

end Stopwatch
