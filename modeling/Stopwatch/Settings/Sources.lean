import Stopwatch.Settings.DotEnv
import Stopwatch.Settings.Value

/-!
Where settings come from. A key is a path with dots between its parts. The value of a key is that of the flag that was
given for it, else of its environment variable, else of the file, else the default; a value that is no table hides all
keys below it in the sources after it.
-/

namespace Stopwatch.Settings

/-- The values of keys that no source sets. -/
def defaults : Table :=
  [(utf8 "nats", .table
      [(utf8 "url", .text (utf8 "nats://localhost:4222")),
       (utf8 "requestsubject", .text (utf8 "bench.requested")),
       (utf8 "resultsubject", .text (utf8 "bench.result")),
       (utf8 "queuegroup", .text (utf8 "fib-bench-group")),
       (utf8 "maxreconnects", .int 5),
       (utf8 "reconnectwaitsec", .int 2)]),
   (utf8 "bench", .table
      [(utf8 "mindurationms", .int 1000),
       (utf8 "timelimitms", .int 10000),
       (utf8 "memorylimitkb", .int 0),
       (utf8 "maxconcurrentjobs", .int 1),
       (utf8 "workdir", .text (utf8 "."))])]

/-- The environment variable of a key. -/
def variableName (key : Bytes) : Bytes :=
  utf8 "FIBBENCH_" ++ key.map fun b => if b == Ascii.dot then Ascii.underscore else Ascii.upper b

/-- The sources of settings. Flags are listed by key, environment variables by name; `variableOf` tells the variable of a
key. -/
structure Sources where
  flags : List (Bytes × Value) := []
  environment : DotEnv.Variables := []
  file : Table := []
  defaults : Table := Settings.defaults
  variableOf : Bytes → Bytes := variableName

/-- A path of parts, outermost first. -/
abbrev Path := List Bytes

def Path.ofKey (key : Bytes) : Path := Bytes.split Ascii.dot key

def Path.key (p : Path) : Bytes := Bytes.join [Ascii.dot] p

/-- The paths above a path, outermost first. -/
def Path.above (p : Path) : List Path := (List.range p.length).filterMap fun i => if i = 0 then none else some (p.take i)

/-- The value at a path, part by part. -/
def Table.find? (t : Table) : Path → Option Value
  | [] => some (.table t)
  | [part] => t.get? part
  | part :: rest =>
    match t.get? part with
    | some (.table inner) => find? inner rest
    | _ => none

/-- A value that is present and not null. -/
def present : Option Value → Option Value
  | some .null => none
  | v => v

/-- The value at a path where a key may itself hold dots; longer keys are tried first. The number bounds the parts. -/
def Table.findJoined? : Nat → Table → Path → Option Value
  | 0, _, _ => none
  | fuel + 1, t, path =>
    (List.range path.length).foldl (fun shorter i =>
      (present (match t.get? (Path.key (path.take (i + 1))), path.drop (i + 1) with
        | some v, [] => some v
        | some (.table inner), rest => findJoined? fuel inner rest
        | _, _ => none)).or shorter) none

/-- Whether a value that is no table stands above a path. -/
def Table.hides (t : Table) (path : Path) : Bool :=
  let rec go : List Path → Bool
    | [] => false
    | p :: rest =>
      match present (t.find? p) with
      | none => false
      | some (.table _) => go rest
      | some _ => true
  go path.above

/-- The value that the environment gives a key; an empty variable gives none. -/
def Sources.fromEnvironment? (s : Sources) (key : Bytes) : Option Bytes :=
  (s.environment.lookup (s.variableOf key)).filter fun v => !v.isEmpty

/-- The value of a key. -/
def Sources.get? (s : Sources) (key : Bytes) : Option Value :=
  let path := Path.ofKey key
  match s.flags.lookup key, s.fromEnvironment? key with
  | some v, _ => some v
  | none, some text => some (.text text)
  | none, none =>
    if path.above.any fun p => (s.fromEnvironment? p.key).isSome then none
    else
      match Table.findJoined? (path.length + 1) s.file path with
      | some v => some v
      | none => if s.file.hides path then none else present (s.defaults.find? path)

mutual

/-- Adds the keys of a value to those already listed; a table below a listed key adds none. -/
def keysOf (key : Bytes) (listed : List Bytes) : Value → List Bytes
  | .table entries => if listed.contains key then listed else keysBelow (key ++ [Ascii.dot]) listed entries
  | _ => if listed.contains key then listed else listed ++ [key]

def keysBelow (before : Bytes) (listed : List Bytes) : List (Bytes × Value) → List Bytes
  | [] => listed
  | (part, v) :: rest => keysBelow before (keysOf (before ++ part) listed v) rest

end

/-- All keys that have a value: those of the flags, of the file and of the defaults. -/
def Sources.keys (s : Sources) : List Bytes :=
  keysBelow [] (keysBelow [] (s.flags.map Prod.fst).eraseDups s.file) s.defaults

/-- The table with a value put at a path; what stands in the way gives way to a table. -/
def Table.putAt (t : Table) : Path → Value → Table
  | [], _ => t
  | [part], v => t.put part v
  | part :: rest, v =>
    let inner := match t.get? part with
      | some (.table inner) => inner
      | _ => []
    t.put part (.table (putAt inner rest v))

/-- The values of all keys as one table. -/
def Sources.table (s : Sources) : Table :=
  s.keys.foldl (fun t key =>
    match s.get? key with
    | some v => t.putAt (Path.ofKey key) v
    | none => t) []

end Stopwatch.Settings
