import Stopwatch.Bench.Runner
import Stopwatch.Host.Spawn
import Stopwatch.InProcess.Executor
import Stopwatch.Isolate.Tool
import Stopwatch.Settings.Load

/-!
The built-in executors together: processes of a host, kernels inside the harness, and boxes of the sandbox tool. Each
has its own part of the state.
-/

namespace Stopwatch

/-- An executor that works on a part of a larger state. -/
def Executor.over {σ τ : Type} (ex : Executor σ) (get : τ → σ) (put : τ → σ → τ) : Executor τ :=
  { id := ex.id
    execute := fun cancelled state req =>
      let a := ex.execute cancelled (get state) req
      { outcome := a.outcome, state := put state a.state, elapsed := a.elapsed, cancels := a.cancels } }

namespace Host

/-- What stands at a path of a folder. A text that names its interpreter can be started. -/
def nodeOf (path content : Bytes) : Node :=
  if path.getLast? = some Ascii.slash then .directory
  else .file content (Bytes.startsWith (utf8 "#!") content)

/-- The host of a program that stands in a folder; its file `.env` adds to the variables. -/
def Machine.ofSurroundings (s : Settings.Surroundings) : Machine :=
  { files := systemFiles ++ s.folder.map fun (path, content) => (partsFrom s.directory path, nodeOf path content)
    directory := s.directory
    environment := s.variables .builtIn }

/-- What the built-in executors work on. -/
structure Facility where
  machine : Machine := {}
  kernels : InProcess.State := {}
  boxes : Isolate.Counter := 0

/-- The sandbox executor on a host: the tool is looked up like any command. -/
def sandbox (m : Machine) : Executor Isolate.Counter :=
  { id := ExecutorKind.isolate.id
    execute := fun cancelled counter req =>
      let start (path : Bytes) : Option Refusal :=
        match m.programAt m.directory path with
        | .ok _ => none
        | .error reason => some reason
      let tool := Isolate.toolStart (searchPath m.files) start cancelled (utf8 "isolate")
      let c := Isolate.execute (({} : Isolate.Behaviour).withTool tool req) (utf8 "/tmp/isolate") counter req
      { outcome := c.outcome, state := c.counter } }

/-- The stations of the built-in executors. -/
def Facility.stations (f : Facility) : List (Station Facility) :=
  [{ kind := ExecutorKind.direct.label
     executor := Machine.executor.over Facility.machine fun f machine => { f with machine }
     state := f },
   { kind := ExecutorKind.inprocess.label
     executor := (InProcess.executor InProcess.pace).over Facility.kernels fun f kernels => { f with kernels }
     state := f },
   { kind := ExecutorKind.isolate.label
     executor := (sandbox f.machine).over Facility.boxes fun f boxes => { f with boxes }
     state := f }]

end Host

end Stopwatch
