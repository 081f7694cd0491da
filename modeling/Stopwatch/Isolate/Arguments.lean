import Stopwatch.Executor.Basic
import Stopwatch.Number.Layout

/-!
Command lines of the sandbox tool: making a box, running a command in it, removing it.
-/

namespace Stopwatch.Isolate

/-- The search path of programs inside a box. -/
def boxPath : Bytes := utf8 "/usr/local/sbin:/usr/local/bin:/usr/sbin:/usr/bin:/sbin:/bin"

/-- The most processes that a box may hold. -/
def boxProcesses : Nat := 64

/-- Where a run leaves its output and its meta file. -/
structure Files where
  out : Bytes
  err : Bytes
  info : Bytes
  deriving DecidableEq, Repr

/-- The words that name a box. -/
def boxWords (box : Bytes) : List Bytes := [utf8 "--box-id=" ++ box, utf8 "--cg"]

/-- A limit in milliseconds as seconds. -/
def seconds (ms : Int64) : Float := Float.ofInt ms.toInt / 1000

/-- The words for the limits that bind. -/
def limitWords (req : RunRequest) : List Bytes :=
  (if 0 < req.memoryLimitKb then [utf8 "--cg-mem=" ++ Integer.ofInt64 req.memoryLimitKb] else [])
    ++ (if 0 < req.timeLimitMs then
      [utf8 "--time=" ++ Layout.fixed 3 (seconds req.timeLimitMs),
        utf8 "--wall-time=" ++ Layout.fixed 3 (seconds req.timeLimitMs * 2)]
      else [])

/-- The words that make a box. -/
def makeWords (box : Bytes) : List Bytes := boxWords box ++ [utf8 "--init"]

/-- The words that remove a box. -/
def removeWords (box : Bytes) : List Bytes := boxWords box ++ [utf8 "--cleanup"]

/-- The words that run a command in a box; those of the command come last, after `--run --`. -/
def runWords (box : Bytes) (req : RunRequest) (files : Files) : List Bytes :=
  boxWords box ++ limitWords req
    ++ [utf8 "--stdout=" ++ files.out, utf8 "--stderr=" ++ files.err, utf8 "--meta=" ++ files.info,
      utf8 "--env=PATH=" ++ boxPath, utf8 "--processes=" ++ Integer.ofNat boxProcesses]
    ++ (if req.workDir.isEmpty then [] else [utf8 "--dir=/box=" ++ req.workDir])
    ++ [utf8 "--run", utf8 "--"] ++ req.words

end Stopwatch.Isolate
