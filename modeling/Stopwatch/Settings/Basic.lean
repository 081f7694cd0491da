import Stopwatch.Bench.Result
import Stopwatch.Bench.Selection
import Stopwatch.Number.Integer

/-!
The settings of the harness, their defaults, and the request that they describe.
-/

namespace Stopwatch

/-- How the message bus is reached. -/
structure BusSettings where
  url : Bytes := []
  requestSubject : Bytes := []
  resultSubject : Bytes := []
  queueGroup : Bytes := []
  maxReconnects : Int64 := 0
  reconnectWaitSec : Int64 := 0
  deriving DecidableEq, Repr, Inhabited

/-- How programs are measured. A job count that is not positive means no bound. -/
structure BenchSettings where
  minDurationMs : Int64 := 0
  timeLimitMs : Int64 := 0
  memoryLimitKb : Int64 := 0
  maxConcurrentJobs : Int64 := 0
  workDir : Bytes := []
  programs : Option (List Program) := none
  deriving DecidableEq, Repr, Inhabited

structure Settings where
  bus : BusSettings := {}
  bench : BenchSettings := {}
  deriving DecidableEq, Repr, Inhabited

/-- The configured programs, none if the list was not given. -/
def BenchSettings.programList (b : BenchSettings) : List Program := b.programs.getD []

/-- The programs that are measured when none are configured: the same computation inside the harness and as a process. -/
def defaultPrograms : List Program :=
  [{ name := utf8 "fib/inprocess"
     executor := utf8 "inprocess"
     command := some [utf8 "fib", utf8 "38"]
     expectOutput := utf8 "39088169" },
   { name := utf8 "fib/binary"
     executor := utf8 "direct"
     command := some [utf8 "./bin/fib"]
     expectOutput := utf8 "39088169" }]

/-- The settings with the default programs in place of an empty list. -/
def Settings.withPrograms (s : Settings) : Settings :=
  if s.bench.programList.isEmpty then { s with bench := { s.bench with programs := some defaultPrograms } } else s

/-- The id of a request made at a moment, in nanoseconds. -/
def Request.idAt (moment : Nat) : Bytes := utf8 "bench-" ++ Integer.ofNat moment

/-- The request that settings describe for some program names, and the first name that no program carries. No names
mean all programs. -/
def BenchSettings.request (b : BenchSettings) (moment : Nat) (names : List Bytes) : Request × Option Bytes :=
  let all : Request :=
    { id := Request.idAt moment
      programs := b.programs
      minDurationMs := b.minDurationMs
      timeLimitMs := b.timeLimitMs
      memoryLimitKb := b.memoryLimitKb }
  if names.isEmpty then (all, none)
  else
    let (chosen, unknown) := Selection.select b.programList names []
    ({ all with programs := someIfAny chosen }, unknown)

end Stopwatch
