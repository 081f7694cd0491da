import Stopwatch.Direct.Executor
import Stopwatch.Host.Shell.Eval

/-!
Starting a process on the host and following it to its end. The file is checked the way the system does before it runs
anything, and what the process did is laid out as a timeline. The executors work on any system that starts processes; this
one stands in for a real one, so that the program can be run from its definitions alone.
-/

namespace Stopwatch.Host

open Direct (Start Timeline)

/-- A host: its files, the directory that callers stand in, and its variables. -/
structure Machine where
  files : Files := systemFiles
  directory : Parts := [utf8 "work"]
  environment : List (Bytes × Bytes) := []

/-- The bound on the steps of a process. -/
def stepBound : Nat := 400000

/-- The directory that a process starts in. -/
def Machine.workDirectory (m : Machine) (workDir : Bytes) : Except Refusal Parts :=
  if workDir.isEmpty then .ok m.directory
  else if workDir.contains Ascii.nul then .error .badArgument
  else
    let parts := partsFrom m.directory workDir
    match m.files.find parts with
    | .ok .directory => .ok parts
    | .ok _ => .error .notDirectory
    | .error e => .error e

/-- The program behind a path, seen from a directory. -/
def Machine.programAt (m : Machine) (directory : Parts) (path : Bytes) : Except Refusal Node :=
  match m.files.find (partsFrom directory path) with
  | .error e => .error e
  | .ok (.tool t) => if path.getLast? = some Ascii.slash then .error .notDirectory else .ok (.tool t)
  | .ok (.file content true) =>
    if path.getLast? = some Ascii.slash then .error .notDirectory
    else
      match Shell.interpreter? content with
      | none => .error .badFormat
      | some (interpreter, _) =>
        match m.files.find (partsFrom directory interpreter) with
        | .ok (.tool _) => .ok (.file content true)
        | .ok _ => .error .denied
        | .error e => .error e
  | .ok _ => .error .denied

/-- The first process of a start. -/
def Machine.process (m : Machine) (directory : Parts) (horizon : Nat) : Shell.State :=
  let known := (utf8 "PWD", pathOf directory) :: (utf8 "PATH", utf8 "/usr/local/bin:/usr/bin:/bin") ::
    (m.environment.filter fun v => v.1 != utf8 "PWD" && v.1 != utf8 "PATH")
  { world := { files := m.files, horizon, memory := [(0, Shell.baseMemory)] }
    bindings := known.map fun (name, value) => (name, Data.ofBytes value)
    exported := known.map Prod.fst
    directory }

/-- What can be seen of a process that ran. -/
def timelineOf (s : Shell.State) : Timeline :=
  let exit := match s.flow with
    | .cut => none
    | .killed signal => some (s.now, Direct.Ending.signaled signal)
    | _ => some (s.now, Direct.Ending.exited s.status)
  let held := s.world.holders.foldl (fun latest h => max latest h.2) s.now
  let writes := s.world.outputs.reverse.map fun o =>
    ({ moment := o.moment, channel := o.channel, text := o.data.bytes } : Direct.Write)
  { exit
    closed := if exit.isNone || s.world.horizon < held then none else some held
    writes := writes.mergeSort fun a b => a.moment ≤ b.moment
    memory := s.world.memory.reverse.map fun (moment, kb) => (moment, UInt64.ofNat (1024 * kb))
    apart := s.world.apart }

/-- Starts a process and follows it; its files stay behind. -/
def Machine.spawn (m : Machine) (start : Start) : Except StartError (Timeline × Machine) := do
  let path ← resolve (searchPath m.files) (start.words.head?.getD [])
  let refused {α : Type} (r : Except Refusal α) : Except StartError α := r.mapError (.refused path)
  if start.words.any (·.contains Ascii.nul) then .error (.refused path .badArgument)
  else
    let directory ← refused (m.workDirectory start.workDir)
    let program ← refused (m.programAt directory path)
    let horizon := start.horizon.getD Shell.longestLife
    let words := match program with
      | .file _ _ => path :: start.words.tail
      | _ => start.words
    let ended := Shell.program stepBound program words ((m.process directory horizon).spend Shell.processCost)
    .ok (timelineOf ended, { m with files := ended.world.files })

/-- The executor that starts processes on a host. -/
def Machine.executor : Executor Machine := Direct.executor Machine.spawn

end Stopwatch.Host
