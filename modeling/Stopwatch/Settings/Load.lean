import Stopwatch.Settings.Library
import Stopwatch.Text.Path

/-!
Loading settings: variables from the file `.env`, the first settings file on the search path, and the sources put
together.
-/

namespace Stopwatch.Settings

/-- Files by path, from the working directory or from the root. A path that ends in a slash is an empty directory. -/
abbrev Folder := List (Bytes × Bytes)

/-- What settings are loaded from: the files that can be reached, the working directory, and the environment. -/
structure Surroundings where
  folder : Folder := []
  directory : Parts := [utf8 "work"]
  environment : DotEnv.Variables := []

/-- The content of the file at a path. -/
def Surroundings.read (s : Surroundings) (path : Bytes) : Option Bytes :=
  (s.folder.find? fun e =>
    e.1.getLast? != some Ascii.slash && partsFrom s.directory e.1 == partsFrom s.directory path).map Prod.snd

/-- The environment with the variables of the file `.env`. A bad file adds none. -/
def Surroundings.variables (lib : Library) (s : Surroundings) : DotEnv.Variables :=
  match (s.read (utf8 ".env")).bind lib.variables? with
  | none => s.environment
  | some vars => lib.extend s.environment vars

/-- The directories in which a settings file is looked for, in order: the given ones first. -/
def searchPath (directories : List Bytes) : List Bytes :=
  directories.filter (fun d => !d.isEmpty) ++ [utf8 "./configs", utf8 ".", utf8 "/etc/fib-bench/"]

/-- The first settings file. The names of directories refer to the environment without `.env`, which is read later. -/
def findFile (lib : Library) (s : Surroundings) (directories : List Bytes) : Option Bytes :=
  (searchPath directories).findSome? (lib.fileIn s.read s.environment)

/-- Why settings could not be loaded. -/
inductive LoadError where
  /-- The file holds no table. -/
  | badFile
  | badValues (errors : List DecodeError)

/-- The sources of settings, none if the file holds no table. -/
def sources? (lib : Library) (s : Surroundings) (directories : List Bytes) (flags : List (Bytes × Value)) :
    Option Sources := do
  let file ← match findFile lib s directories with
    | none => some []
    | some text => lib.table? text
  some { flags, environment := s.variables lib, file }

/-- The settings that all sources give together. -/
def load (lib : Library) (s : Surroundings) (directories : List Bytes) (flags : List (Bytes × Value)) :
    Except LoadError Stopwatch.Settings :=
  match sources? lib s directories flags with
  | none => .error .badFile
  | some sources =>
    match lib.decode (lib.gather sources) with
    | .error errors => .error (.badValues errors)
    | .ok settings => .ok settings.withPrograms

end Stopwatch.Settings
