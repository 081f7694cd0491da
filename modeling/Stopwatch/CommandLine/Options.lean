import Stopwatch.Flags.Basic
import Stopwatch.Settings.Value

/-!
The commands and their flags, and the settings that flags stand for.
-/

namespace Stopwatch.CommandLine

inductive Command where
  | run
  | serve
  | submit
  deriving DecidableEq, Repr

namespace Command

def name : Command → Bytes
  | .run => utf8 "run"
  | .serve => utf8 "serve"
  | .submit => utf8 "submit"

def all : List Command := [.run, .serve, .submit]

def ofName? (s : Bytes) : Option Command := all.find? fun c => c.name == s

end Command

/-- The flags that every command takes. -/
def commonFlags : List Flags.Spec :=
  [{ name := utf8 "config", kind := .text }, { name := utf8 "nats-url", kind := .text }]

/-- The flags of a measurement. -/
def benchFlags : List Flags.Spec :=
  [{ name := utf8 "min-duration", kind := .int },
   { name := utf8 "time-limit", kind := .int },
   { name := utf8 "memory-limit", kind := .int },
   { name := utf8 "workdir", kind := .text }]

/-- The flags of a command. -/
def Command.flags : Command → List Flags.Spec
  | .run => benchFlags ++ [{ name := utf8 "publish", kind := .truth }] ++ commonFlags
  | .serve => [{ name := utf8 "max-jobs", kind := .int }] ++ commonFlags
  | .submit => benchFlags ++ [{ name := utf8 "timeout", kind := .duration }] ++ commonFlags

/-- The flag that asks for help. -/
def helpFlag : Flags.Spec := { name := utf8 "help", kind := .truth, letter := some 0x68 }

/-- The setting that each flag stands for. -/
def settingOf (flag : Bytes) : Option Bytes :=
  [("nats-url", "nats.url"), ("min-duration", "bench.mindurationms"), ("time-limit", "bench.timelimitms"),
    ("memory-limit", "bench.memorylimitkb"), ("max-jobs", "bench.maxconcurrentjobs"),
    ("workdir", "bench.workdir")].findSome? fun (name, key) => if utf8 name == flag then some (utf8 key) else none

/-- A flag's value as the value of a setting. -/
def settingValue : Flags.Given → Settings.Value
  | .text s => .text s
  | .int n => .int n
  | .truth b => .bool b
  | .duration ns => .int ns

/-- The settings that flags give, the latest first. -/
def settingsOf (p : Flags.Parsed) : List (Bytes × Settings.Value) :=
  p.given.filterMap fun (name, v) => (settingOf name).map fun key => (key, settingValue v)

end Stopwatch.CommandLine
