import Stopwatch.Bench.Program

/-!
What a measurement says: the status of a program, its result, and the report on a request.
-/

namespace Stopwatch

/-- How a run or a whole measurement ended. -/
inductive Status where
  | success
  | wrongOutput
  | runtimeError
  | timeLimitExceeded
  | memoryLimitExceeded
  | running
  | internalError
  | other (text : Bytes)
  deriving DecidableEq, Repr, Inhabited

namespace Status

/-- The word for a status. -/
def text : Status → Bytes
  | .success => utf8 "success"
  | .wrongOutput => utf8 "wrong_output"
  | .runtimeError => utf8 "runtime_error"
  | .timeLimitExceeded => utf8 "time_limit_exceeded"
  | .memoryLimitExceeded => utf8 "memory_limit_exceeded"
  | .running => utf8 "running"
  | .internalError => utf8 "internal_error"
  | .other s => s

/-- The statuses that have a word of their own. -/
def named : List Status :=
  [.success, .wrongOutput, .runtimeError, .timeLimitExceeded, .memoryLimitExceeded, .running, .internalError]

/-- The status that a word stands for. -/
def ofText (s : Bytes) : Status := (named.find? fun st => st.text == s).getD (.other s)

end Status

/-- The result of measuring one program. -/
structure Result where
  requestId : Bytes := []
  program : Bytes := []
  status : Status := .other []
  samples : Int64 := 0
  meanMs : Float := 0
  minMs : Float := 0
  maxMs : Float := 0
  peakMemoryKb : Int64 := 0
  output : Bytes := []
  error : Bytes := []
  deriving Repr, Inhabited

/-- The report on a request. The score is the geometric mean of the means of the successful programs. -/
structure Report where
  requestId : Bytes := []
  results : Option (List Result) := none
  scoreMs : Float := 0
  failed : Option (List Bytes) := none
  deriving Repr, Inhabited

/-- A list as a field that stays absent while nothing was added. -/
def someIfAny {α : Type} (xs : List α) : Option (List α) := if xs.isEmpty then none else some xs

@[simp] theorem getD_someIfAny {α : Type} (xs : List α) : (someIfAny xs).getD [] = xs := by
  cases xs <;> rfl

end Stopwatch
