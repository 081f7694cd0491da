import Stopwatch.Bench.Result
import Stopwatch.Number.Layout
import Stopwatch.Wire.Value

/-!
Requests, results and reports as values, with their fields in a fixed order. Numbers that are not finite have no
literal, so a result or a report that holds one cannot go out.
-/

namespace Stopwatch.Wire

/-- A number that has no literal. -/
structure Unsupported where
  text : Bytes
  deriving DecidableEq, Repr

def Unsupported.message (u : Unsupported) : Bytes := utf8 "json: unsupported value: " ++ u.text

/-- The literal of a finite number: positional, or with an exponent if it is very small or very large. -/
def finiteLiteral (negative : Bool) (m : Nat) (e : Int) : Bytes :=
  let n := Shortest.numeral m e
  (if negative then [Ascii.minus] else []) ++
    (if m ≠ 0 && (n.exponent < -6 || 21 ≤ n.exponent) then Layout.scientificNumeral 1 n
      else Layout.positionalNumeral n)

def ofFloat (x : Float) : Except Unsupported Value :=
  match Double.ofFloat x with
  | .finite negative m e => .ok (.number (finiteLiteral negative m e))
  | other => .error ⟨Layout.special other⟩

def ofInt (n : Int64) : Value := .number (Integer.ofInt64 n)

/-- A list that may be absent. -/
def ofList {α : Type} (item : α → Value) : Option (List α) → Value
  | none => .null
  | some items => .list (items.map item)

def ofProgram (p : Program) : Value :=
  .table [(utf8 "name", .text p.name), (utf8 "executor", .text p.executor),
    (utf8 "command", ofList .text p.command), (utf8 "expectOutput", .text p.expectOutput)]

def ofRequest (r : Request) : Value :=
  .table [(utf8 "id", .text r.id), (utf8 "programs", ofList ofProgram r.programs),
    (utf8 "minDurationMs", ofInt r.minDurationMs), (utf8 "timeLimitMs", ofInt r.timeLimitMs),
    (utf8 "memoryLimitKb", ofInt r.memoryLimitKb)]

def ofResult (r : Result) : Except Unsupported Value := do
  let mean ← ofFloat r.meanMs
  let least ← ofFloat r.minMs
  let most ← ofFloat r.maxMs
  .ok (.table [(utf8 "requestId", .text r.requestId), (utf8 "program", .text r.program),
    (utf8 "status", .text r.status.text), (utf8 "samples", ofInt r.samples), (utf8 "meanMs", mean),
    (utf8 "minMs", least), (utf8 "maxMs", most), (utf8 "peakMemoryKb", ofInt r.peakMemoryKb),
    (utf8 "output", .text r.output), (utf8 "error", .text r.error)])

/-- The failed programs; an empty list leaves the whole field out. -/
def failedEntry : Option (List Bytes) → List (Bytes × Value)
  | some (name :: rest) => [(utf8 "failed", .list ((name :: rest).map .text))]
  | _ => []

def ofReport (r : Report) : Except Unsupported Value := do
  let results ← match r.results with
    | none => .ok .null
    | some results => (results.mapM ofResult).map .list
  let score ← ofFloat r.scoreMs
  .ok (.table ([(utf8 "requestId", .text r.requestId), (utf8 "results", results), (utf8 "scoreMs", score)]
    ++ failedEntry r.failed))

end Stopwatch.Wire
