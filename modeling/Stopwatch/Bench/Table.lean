import Stopwatch.Bench.Result
import Stopwatch.Number.Layout

/-!
The report as a table: one line per result, a rule, and the score. The lines are written one by one, and writing stops
at the first refusal.
-/

namespace Stopwatch.Table

/-- The width of the column of names; longer names are kept whole. -/
def nameWidth : Nat := 37

/-- Milliseconds with one place, at least six octets wide. -/
def time (ms : Float) : Bytes := Bytes.padLeft 6 (Layout.fixed 1 ms) ++ utf8 "ms"

/-- A line of the table. -/
def line (name cell : Bytes) : Bytes := name.padRight nameWidth ++ [Ascii.space] ++ cell ++ [Ascii.newline]

/-- The line of a result: its mean if it succeeded, else its status. -/
def resultLine (r : Result) : Bytes :=
  line r.program (if r.status = .success then time r.meanMs else r.status.text)

/-- All lines of the table in order. -/
def lines (report : Report) : List Bytes :=
  (report.results.getD []).map resultLine
    ++ [line [] (utf8 "========"), line (utf8 "Score") (time report.scoreMs)]

/-- The whole table. -/
def text (report : Report) : Bytes := (lines report).flatten

/-- What became of writing pieces of text one by one. -/
structure Written (ε : Type) where
  text : Bytes := []
  attempts : Nat := 0
  error : Option ε := none

/-- Writes pieces until one is refused; `refuses` tells whether the write of that number fails. -/
def writeAll {ε : Type} (refuses : Nat → Option ε) : List Bytes → Written ε → Written ε
  | [], w => w
  | piece :: rest, w =>
    match refuses w.attempts with
    | some e => { w with attempts := w.attempts + 1, error := some e }
    | none => writeAll refuses rest { w with text := w.text ++ piece, attempts := w.attempts + 1 }

/-- Writes the table of a report. -/
def write {ε : Type} (refuses : Nat → Option ε) (report : Report) : Written ε :=
  writeAll refuses (lines report) {}

end Stopwatch.Table
