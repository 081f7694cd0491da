import Stopwatch.CommandLine.Order
import Stopwatch.Host.Facility

/-!
The program: reads the settings files and variables that the command line can reach, carries the command out on the
modelled host, prints the report, and writes the log to the error output.
-/

namespace Stopwatch.CommandLine

/-- The content of a file, none if it cannot be read. -/
def readFile? (path : Bytes) : IO (Option Bytes) := do
  match path.string? with
  | none => pure none
  | some name =>
    try
      let content ← IO.FS.readBinFile name
      pure (some content.data.toList)
    catch _ => pure none

/-- The files that exist among some paths. -/
def readFolder (paths : List Bytes) : IO Settings.Folder := do
  let found ← paths.mapM fun path => do
    let content ← readFile? path
    pure (content.map fun text => (path, text))
  pure (found.filterMap id)

/-- The paths at which settings are looked for. -/
def settingsPaths (environment : DotEnv.Variables) (directory : Bytes) : List Bytes :=
  utf8 ".env" :: (Settings.searchPath [directory]).flatMap fun d =>
    Settings.fileNames.map fun name => Settings.placeOf environment d ++ utf8 "/" ++ name

/-- The variables that settings can come from. -/
def readEnvironment : IO DotEnv.Variables := do
  let names := utf8 "HOME" :: (Settings.keysBelow [] [] Settings.defaults).map Settings.variableName
  let found ← names.mapM fun name => do
    let value ← IO.getEnv ((name.string?).getD "")
    pure (value.map fun v => (name, utf8 v))
  pure (found.filterMap id)

/-- The files that the programs of the settings start. -/
def programPaths (s : Stopwatch.Settings) : List Bytes :=
  s.bench.programList.filterMap fun p =>
    match p.command with
    | some (name :: _) =>
      if name.contains Ascii.slash then
        let inside := if s.bench.workDir.isEmpty then name else s.bench.workDir ++ utf8 "/" ++ name
        if inside.head? = some Ascii.slash then none else some inside
      else none
    | _ => none

/-- Writes octets to a stream. -/
def put (stream : IO.FS.Stream) (s : Bytes) : IO Unit := do
  stream.write ⟨s.toArray⟩
  stream.flush

end Stopwatch.CommandLine

open Stopwatch Stopwatch.CommandLine in
def main (args : List String) : IO UInt32 := do
  let args := args.map utf8
  let parsed := match order args with
    | .ok (.command _ p) => p
    | _ => {}
  let directory := match parsed.get? (utf8 "config") with
    | some (.text d) => d
    | _ => []
  let environment ← readEnvironment
  let here := partsFrom [] (utf8 ((← IO.getEnv "PWD").getD "/"))
  let folder ← readFolder (settingsPaths environment directory)
  let console : Console Host.Facility := { surroundings := { folder, directory := here, environment } }
  let programs ← match console.settings parsed with
    | .ok s => readFolder (programPaths s)
    | .error _ => pure []
  let surroundings : Settings.Surroundings := { folder := folder ++ programs, directory := here, environment }
  let moment ← IO.monoNanosNow
  let answer := execute
    { surroundings
      stations := Host.Facility.stations { machine := Host.Machine.ofSurroundings surroundings }
      moment
      connection := { maxPayload := none } } args
  put (← IO.getStdout) answer.stdout
  let lines := answer.log ++ (answer.failure.toList.map lastLine)
  put (← IO.getStderr) (lines.flatMap fun line => line ++ [Ascii.newline])
  pure (exitCode answer.failure).toUInt32
