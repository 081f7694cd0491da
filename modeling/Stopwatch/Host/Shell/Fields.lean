import Stopwatch.Host.Shell.Pattern

/-!
Fields: the words that come out of expanding a word. An unquoted value is split at separators; quoted parts never are.
-/

namespace Stopwatch.Host.Shell

/-- A piece of an expanded word. -/
inductive Piece where
  /-- Text that stays together. -/
  | text (s : Bytes) (quoted : Bool)
  /-- A value that is split at separators. -/
  | value (s : Bytes)
  /-- The end of one parameter before the next. Soft ends drop empty parameters. -/
  | gap (hard : Bool)

/-- A field: texts, with whether they were quoted. -/
abbrev Field := List (Bytes × Bool)

namespace Field

def text (f : Field) : Bytes := f.flatMap Prod.fst

def pattern (f : Field) : Pattern := f.flatMap fun (s, quoted) => s.map (·, quoted)

end Field

/-- Fields in the making: those done, the latest first, and the texts of the current one, the latest first. -/
structure Split where
  done : List Field := []
  current : Option Field := none
  /-- Whether blanks ended the last field, so that a separator behind them adds nothing. -/
  afterBlank : Bool := false

namespace Split

def add (f : Split) (s : Bytes) (quoted : Bool) : Split :=
  { f with current := some ((s, quoted) :: f.current.getD []), afterBlank := false }

/-- Ends the current field; with `hard` also one without text. -/
def close (f : Split) (hard : Bool) : Split :=
  match f.current with
  | some texts => { done := texts.reverse :: f.done, current := none, afterBlank := !hard }
  | none => if hard && !f.afterBlank then { f with done := [] :: f.done } else { f with afterBlank := false }

/-- Adds a value that is split at separators. -/
def addValue (separators : Bytes) : Nat → Split → Bytes → Split
  | 0, f, _ => f
  | fuel + 1, f, s =>
    let plain := s.takeWhile fun b => !separators.contains b
    let f := if plain.isEmpty then f else f.add plain false
    match s.drop plain.length with
    | [] => f
    | b :: rest =>
      let blank := b == Ascii.space || b == Ascii.tab || b == Ascii.newline
      let f := if blank then (if f.current.isSome then f.close false else f) else f.close true
      addValue separators fuel f rest

def addPiece (separators : Bytes) (f : Split) : Piece → Split
  | .text s quoted => if s.isEmpty && !quoted then f else f.add s quoted
  | .value s => f.addValue separators (s.length + 1) s
  | .gap true => { f.close true with afterBlank := false }
  | .gap false => if f.current.isSome then f.close false else f

end Split

/-- The fields of an expanded word. -/
def fieldsOf (separators : Bytes) (pieces : List Piece) : List Field :=
  ((pieces.foldl (Split.addPiece separators) {}).close false).done.reverse

/-- An expanded word as one text. -/
def textOf (pieces : List Piece) : Bytes := pieces.flatMap fun
  | .text s _ => s
  | .value s => s
  | .gap _ => [Ascii.space]

/-- An expanded word as a pattern. -/
def patternOf (pieces : List Piece) : Pattern := pieces.flatMap fun
  | .text s quoted => s.map (·, quoted)
  | .value s => s.map (·, false)
  | .gap _ => [(Ascii.space, false)]

end Stopwatch.Host.Shell
