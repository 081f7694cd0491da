import Stopwatch.Bench.Result
import Stopwatch.Number.Reader

/-!
Meta files: what the sandbox writes about a run, as lines `key:value`. Later lines of a key win, other keys and lines
without a colon are passed over, and the first line that cannot be used decides the error.
-/

namespace Stopwatch.Isolate

/-- The contents of a meta file. -/
structure Meta where
  time : Float := 0
  cgMem : Int64 := 0
  oomKilled : Int64 := 0
  exitCode : Int64 := 0
  status : Bytes := []
  note : Bytes := []
  deriving Repr

/-- Why a meta file cannot be used. -/
inductive MetaError where
  | badField (key : Bytes) (reason : NumberError)
  | lineTooLong
  deriving DecidableEq, Repr

def MetaError.message : MetaError → Bytes
  | .badField key reason => utf8 "meta " ++ key ++ utf8 ": " ++ reason.message
  | .lineTooLong => utf8 "bufio.Scanner: token too long"

/-- A line of this many octets, its carriage return counted, is too long. -/
def lineLimit : Nat := 65536

/-- The lines of a text, without their ends; a last line counts if it is not empty. -/
def splitLines (text : Bytes) : List Bytes :=
  let pieces := Bytes.split Ascii.newline text
  if pieces.getLast? = some [] then pieces.dropLast else pieces

/-- A line without one carriage return at its end. -/
def dropReturn (line : Bytes) : Bytes :=
  if line.getLast? = some Ascii.carriageReturn then line.dropLast else line

/-- Takes one line `key:value` into the contents. -/
def Meta.put (m : Meta) (key value : Bytes) : Except NumberError Meta :=
  if key == utf8 "time" then (FloatReader.read value).map fun x => { m with time := x }
  else if key == utf8 "cg-mem" then (Integer.read value).map fun n => { m with cgMem := n }
  else if key == utf8 "cg-oom-killed" then (Integer.read value).map fun n => { m with oomKilled := n }
  else if key == utf8 "exitcode" then (Integer.read value).map fun n => { m with exitCode := n }
  else if key == utf8 "status" then .ok { m with status := value }
  else if key == utf8 "message" then .ok { m with note := value }
  else .ok m

/-- Takes one line into the contents. -/
def Meta.line (m : Meta) (line : Bytes) : Except MetaError Meta :=
  if lineLimit ≤ line.length then .error .lineTooLong
  else match Bytes.cut Ascii.colon (dropReturn line) with
    | none => .ok m
    | some (key, value) => (m.put key value).mapError (.badField key)

/-- Reads a meta file. -/
def Meta.parse (text : Bytes) : Except MetaError Meta :=
  (splitLines text).foldlM Meta.line {}

/-- The status of the run that the contents describe: memory first, then the sandbox's verdict, then the exit code. -/
def Meta.runStatus (m : Meta) (memoryLimitKb : Int64) : Status :=
  if 0 < m.oomKilled || (0 < memoryLimitKb && memoryLimitKb < m.cgMem) then .memoryLimitExceeded
  else if m.status == utf8 "TO" then .timeLimitExceeded
  else if m.status == utf8 "RE" || m.status == utf8 "SG" then .runtimeError
  else if m.exitCode ≠ 0 then .runtimeError
  else .success

end Stopwatch.Isolate
