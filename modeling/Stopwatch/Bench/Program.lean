import Stopwatch.Text.Bytes

/-!
What is to be measured: programs, and requests that list them with their limits. A list that was never given is told
apart from an empty one, because the two differ on the wire.
-/

namespace Stopwatch

/-- A program to measure. An empty expected output accepts any. -/
structure Program where
  name : Bytes := []
  executor : Bytes := []
  command : Option (List Bytes) := none
  expectOutput : Bytes := []
  deriving DecidableEq, Repr, Inhabited

/-- A request to measure programs in order. A limit that is not positive does not bind. -/
structure Request where
  id : Bytes := []
  programs : Option (List Program) := none
  minDurationMs : Int64 := 0
  timeLimitMs : Int64 := 0
  memoryLimitKb : Int64 := 0
  deriving DecidableEq, Repr, Inhabited

/-- The programs of a request, none if the list was not given. -/
def Request.programList (r : Request) : List Program := r.programs.getD []

/-- Milliseconds as nanoseconds, in 64 bits. -/
def nanoseconds (ms : Int64) : Int64 := ms * 1000000

end Stopwatch
