import Stopwatch.Settings.Basic
import Stopwatch.Settings.Value
import Stopwatch.Text.Case

/-!
Settings from a table. Values are converted freely between the scalar types, and every value that cannot be converted is
reported, in the order of the fields.
-/

namespace Stopwatch.Settings

/-- Why a value does not fit its field. -/
inductive DecodeError where
  | notNumber (field : Bytes) (reason : NumberError)
  | wrongType (field expected : Bytes) (value : Value)
  | notTable (field : Bytes) (value : Value)

def DecodeError.message : DecodeError → Bytes
  | .notNumber field reason => utf8 "cannot parse '" ++ field ++ utf8 "' as int: " ++ reason.message
  | .wrongType field expected value =>
    utf8 "'" ++ field ++ utf8 "' expected type '" ++ expected ++ utf8 "', got unconvertible type '" ++ value.typeName
      ++ utf8 "', value: '" ++ value.shown ++ utf8 "'"
  | .notTable field value =>
    utf8 "'" ++ field ++ utf8 "' expected a map, got '" ++ value.shapeName ++ utf8 "'"

/-- The message for all that does not fit. -/
def decodeMessage (errors : List DecodeError) : Bytes :=
  utf8 "decoding failed due to the following error(s):\n\n"
    ++ Bytes.join [Ascii.newline] (errors.map DecodeError.message)

/-- A converted value with what went wrong on the way. -/
abbrev Decoded (α : Type) := α × List DecodeError

/-- A number without its fraction; outside of 64 bits the least number stands for it. -/
def truncated (x : Float) : Int64 :=
  if -9223372036854775808.0 ≤ x && x < 9223372036854775808.0 then x.toInt64 else Int64.minValue

/-- A whole number. A text is read with the base that it announces, and an empty one is zero. -/
def decodeInt (field : Bytes) : Option Value → Decoded Int64
  | none => (0, [])
  | some .null => (0, [])
  | some (.int n) => (n, [])
  | some (.natural n) => (n.toInt64, [])
  | some (.float x) => (truncated x, [])
  | some (.bool b) => (if b then 1 else 0, [])
  | some (.text []) => (0, [])
  | some (.text s) =>
    match Integer.readAnyBase s with
    | .ok n => (n, [])
    | .error e => (0, [.notNumber field e])
  | some v => (0, [.wrongType field (utf8 "int") v])

/-- A text. -/
def decodeText (field : Bytes) : Option Value → Decoded Bytes
  | none => ([], [])
  | some .null => ([], [])
  | some (.text s) => (s, [])
  | some (.bool b) => (if b then utf8 "1" else utf8 "0", [])
  | some (.int n) => (Integer.ofInt64 n, [])
  | some (.natural n) => (Integer.ofNat n.toNat, [])
  | some (.float x) => (Layout.positional x, [])
  | some v => ([], [.wrongType field (utf8 "string") v])

/-- A value as the items of a list: a text is split at commas, and anything else that is no list becomes the only
item. -/
def itemsOf : Value → Option (List Value)
  | .null => none
  | .list items => some items
  | .table [] => some []
  | .text [] => some []
  | .text s => some ((Bytes.split Ascii.comma s).map Value.text)
  | v => some [v]

/-- A list, item by item. -/
def decodeList {α : Type} (item : Bytes → Option Value → Decoded α) (field : Bytes) (v : Option Value) :
    Decoded (Option (List α)) :=
  match v.bind itemsOf with
  | none => (none, [])
  | some items =>
    let decoded := items.zipIdx.map fun (v, i) => item (field ++ utf8 "[" ++ Integer.ofNat i ++ utf8 "]") (some v)
    (some (decoded.map Prod.fst), decoded.flatMap Prod.snd)

/-- The fields of a table; only texts name fields, and a date counts as a table without any. -/
def fieldsOf (field : Bytes) : Option Value → Except DecodeError Table
  | none => .ok []
  | some .null => .ok []
  | some (.table t) => .ok t
  | some (.mixed entries) => .ok (entries.filterMap fun
      | (.text key, v) => some (key, v)
      | _ => none)
  | some (.moment _) => .ok []
  | some v => .error (.notTable field v)

/-- The entry of a field. Its name may be written in any case, but as it is it counts first. -/
def entry (t : Table) (name : String) : Option Value :=
  (t.get? (utf8 name)).or ((t.find? fun e => Bytes.folded e.1 == Bytes.folded (utf8 name)).map Prod.snd)

def below (field : Bytes) (name : String) : Bytes := field ++ utf8 "." ++ utf8 name

def decodeProgram (field : Bytes) (v : Option Value) : Decoded Program :=
  match fieldsOf field v with
  | .error e => ({}, [e])
  | .ok t =>
    let (name, e1) := decodeText (below field "name") (entry t "name")
    let (executor, e2) := decodeText (below field "executor") (entry t "executor")
    let (command, e3) := decodeList decodeText (below field "command") (entry t "command")
    let (expectOutput, e4) := decodeText (below field "expectOutput") (entry t "expectOutput")
    ({ name, executor, command, expectOutput }, e1 ++ e2 ++ e3 ++ e4)

def decodeBus (v : Option Value) : Decoded BusSettings :=
  let field := utf8 "nats"
  match fieldsOf field v with
  | .error e => ({}, [e])
  | .ok t =>
    let (url, e1) := decodeText (below field "url") (entry t "url")
    let (requestSubject, e2) := decodeText (below field "requestSubject") (entry t "requestSubject")
    let (resultSubject, e3) := decodeText (below field "resultSubject") (entry t "resultSubject")
    let (queueGroup, e4) := decodeText (below field "queueGroup") (entry t "queueGroup")
    let (maxReconnects, e5) := decodeInt (below field "maxReconnects") (entry t "maxReconnects")
    let (reconnectWaitSec, e6) := decodeInt (below field "reconnectWaitSec") (entry t "reconnectWaitSec")
    ({ url, requestSubject, resultSubject, queueGroup, maxReconnects, reconnectWaitSec },
      e1 ++ e2 ++ e3 ++ e4 ++ e5 ++ e6)

def decodeBench (v : Option Value) : Decoded BenchSettings :=
  let field := utf8 "bench"
  match fieldsOf field v with
  | .error e => ({}, [e])
  | .ok t =>
    let (minDurationMs, e1) := decodeInt (below field "minDurationMs") (entry t "minDurationMs")
    let (timeLimitMs, e2) := decodeInt (below field "timeLimitMs") (entry t "timeLimitMs")
    let (memoryLimitKb, e3) := decodeInt (below field "memoryLimitKb") (entry t "memoryLimitKb")
    let (maxConcurrentJobs, e4) := decodeInt (below field "maxConcurrentJobs") (entry t "maxConcurrentJobs")
    let (workDir, e5) := decodeText (below field "workDir") (entry t "workDir")
    let (programs, e6) := decodeList decodeProgram (below field "programs") (entry t "programs")
    ({ minDurationMs, timeLimitMs, memoryLimitKb, maxConcurrentJobs, workDir, programs },
      e1 ++ e2 ++ e3 ++ e4 ++ e5 ++ e6)

/-- The settings that a table holds, or all that does not fit. -/
def decode (t : Table) : Except (List DecodeError) Stopwatch.Settings :=
  let (bus, e1) := decodeBus (entry t "nats")
  let (bench, e2) := decodeBench (entry t "bench")
  if (e1 ++ e2).isEmpty then .ok { bus, bench } else .error (e1 ++ e2)

end Stopwatch.Settings
