import Stopwatch.Number.Reader
import Stopwatch.Settings.Value
import Stopwatch.Text.Case
import Stopwatch.Yaml.Moment
import Stopwatch.Yaml.Node

/-!
The values of a YAML document. A plain scalar is a truth value, a number, a date or nothing if it spells one, and a text
otherwise. No two keys of a table may be spelled alike, and no key may be a list or a table. In the end all keys are
texts in small letters.
-/

namespace Stopwatch.Yaml

open Settings (Value)

/-- The words with a meaning of their own. -/
def word? (s : Bytes) : Option Value :=
  let is (words : List String) : Bool := words.any fun w => utf8 w == s
  if is ["", "~", "null", "Null", "NULL"] then some .null
  else if is ["true", "True", "TRUE"] then some (.bool true)
  else if is ["false", "False", "FALSE"] then some (.bool false)
  else if is [".nan", ".NaN", ".NAN"] then some (.float (0 / 0))
  else if is [".inf", ".Inf", ".INF", "+.inf", "+.Inf", "+.INF"] then some (.float (1 / 0))
  else if is ["-.inf", "-.Inf", "-.INF"] then some (.float (-1 / 0))
  else none

/-- Whether a text is a decimal fraction: digits with at most one point, not only a point, and perhaps an exponent. -/
def isFraction (s : Bytes) : Bool :=
  let body := Integer.unsigned s
  let whole := body.takeWhile Ascii.isDigit
  let (part, rest) := match body.dropWhile Ascii.isDigit with
    | Ascii.dot :: rest => (rest.takeWhile Ascii.isDigit, rest.dropWhile Ascii.isDigit)
    | rest => ([], rest)
  let exponent := match rest with
    | [] => true
    | e :: rest =>
      let digits := Integer.unsigned rest
      Ascii.lower e == 0x65 && !digits.isEmpty && digits.all Ascii.isDigit
  (!whole.isEmpty || !part.isEmpty) && exponent

/-- A whole number in a known base, with a sign or above the signed range. -/
def wholeNumber? (base : Nat) (s : Bytes) : Option Value :=
  match Integer.signed (Integer.magnitude base) s with
  | .ok n => some (.int n)
  | .error _ =>
    match Integer.magnitude base s with
    | .ok n => some (.natural n.toUInt64)
    | .error _ => none

/-- A whole number behind a mark of its base, where the sign may stand in front of the mark or, once, behind it. -/
def markedNumber? (mark : String) (base : Nat) (s : Bytes) : Option Value :=
  if Bytes.startsWith (utf8 mark) s then wholeNumber? base (s.drop 2)
  else if Bytes.startsWith (utf8 "-" ++ utf8 mark) s then
    (Integer.signed (Integer.magnitude base) (Ascii.minus :: s.drop 3)).toOption.map Value.int
  else none

/-- The number that a text spells. -/
def number? (s : Bytes) : Option Value :=
  let digits := s.filter (· != Ascii.underscore)
  match Integer.readAnyBase digits with
  | .ok n => some (.int n)
  | .error _ =>
    match Integer.magnitudeAnyBase digits with
    | .ok n => some (.natural n.toUInt64)
    | .error _ =>
      let fraction := if isFraction digits then (FloatReader.read digits).toOption.map Value.float else none
      (fraction.or (markedNumber? "0b" 2 digits)).or (markedNumber? "0o" 8 digits)

/-- The value of a plain scalar. -/
def plainValue (s : Bytes) : Value :=
  match word? s with
  | some v => v
  | none =>
    match s with
    | [] => .null
    | b :: _ =>
      if b == Ascii.dot then (((FloatReader.read s).toOption.map Value.float).getD (.text s))
      else if Ascii.isDigit b || b == Ascii.plus || b == Ascii.minus then
        (((Moment.read? s).map fun m => Value.moment m.shown).orElse fun _ => number? s).getD (.text s)
      else .text s

def scalarValue (text : Bytes) (plain : Bool) : Value := if plain then plainValue text else .text text

/-- The spelling of a key, by which keys are told apart. Lists and tables have none. -/
def spelling : Node → Nat × Bytes
  | .scalar text _ => (0, text)
  | .list _ => (1, [])
  | .table _ => (2, [])

/-- Whether no spelling comes twice. -/
def allDistinct : List (Nat × Bytes) → Bool
  | [] => true
  | x :: rest => !rest.contains x && allDistinct rest

/-- The text that a key stands for inside a document. -/
def keyText : Value → Bytes
  | .null => []
  | .float x => Layout.positional x
  | v => v.shown

/-- The value of a key. Lists and tables are no keys. -/
def keyValue : Node → Option Value
  | .scalar text plain => some (scalarValue text plain)
  | _ => none

/-- The entries of a table, of which the last with a key counts. -/
def lastOnly (entries : Settings.Table) : Settings.Table := entries.foldl (fun t e => t.put e.1 e.2) []

/-- A table of entries: with texts for keys if all of them are, otherwise a mixed one. -/
def tableValue (entries : List (Value × Value)) : Value :=
  match entries.mapM fun
    | (.text key, v) => some (key, v)
    | _ => none with
  | some entries => .table entries
  | none => .mixed entries

mutual

/-- The value of a node, none if a table in it has a bad key. -/
def valueOf : Node → Option Value
  | .scalar text plain => some (scalarValue text plain)
  | .list items => (valuesOf items).map Value.list
  | .table entries =>
    if allDistinct (entries.map fun e => spelling e.1) then (entriesOf entries).map tableValue else none

def valuesOf : List Node → Option (List Value)
  | [] => some []
  | n :: rest => do
    let v ← valueOf n
    let vs ← valuesOf rest
    some (v :: vs)

def entriesOf : List (Node × Node) → Option (List (Value × Value))
  | [] => some []
  | (key, n) :: rest => do
    let k ← keyValue key
    let v ← valueOf n
    let vs ← entriesOf rest
    some ((k, v) :: vs)

end

/-- A table with small letters in its keys. Of two keys that become the same, the one that had capital letters
counts. -/
def loweredTable (t : Settings.Table) : Settings.Table :=
  let (changed, kept) := t.partition fun e => Bytes.lowered e.1 != e.1
  lastOnly (kept ++ changed.map fun e => (Bytes.lowered e.1, e.2))

mutual

/-- A table below a mixed one with small letters in its keys; lists in it stay as they are. -/
def copied : Value → Value
  | .table entries => .table (lastOnly (copiedEntries entries))
  | .mixed entries => .table (lastOnly (copiedPairs entries))
  | v => v

def copiedEntries : List (Bytes × Value) → Settings.Table
  | [] => []
  | (key, v) :: rest => (Bytes.lowered key, copied v) :: copiedEntries rest

def copiedPairs : List (Value × Value) → Settings.Table
  | [] => []
  | (key, v) :: rest => (Bytes.lowered (keyText key), copied v) :: copiedPairs rest

end

mutual

/-- A value with small letters in the keys of its tables, and texts for all keys. -/
def settled : Value → Value
  | .table entries => .table (loweredTable (settledEntries entries))
  | .mixed entries => .table (lastOnly (copiedPairs entries))
  | .list items => .list (settledItems items)
  | v => v

def settledItems : List Value → List Value
  | [] => []
  | v :: rest => settled v :: settledItems rest

def settledEntries : List (Bytes × Value) → Settings.Table
  | [] => []
  | (key, v) :: rest => (key, settled v) :: settledEntries rest

end

/-- The entries of the outermost table. Its keys are taken as they are spelled, and one that spells nothing is left
out. -/
def rootEntries : List (Node × Node) → Option Settings.Table
  | [] => some []
  | (.scalar text plain, n) :: rest =>
    match scalarValue text plain with
    | .null => rootEntries rest
    | _ => do
      let v ← valueOf n
      let vs ← rootEntries rest
      some ((text, settled v) :: vs)
  | _ :: _ => none

/-- The table that a text holds. A text without a document holds the empty one. -/
def tableOf (text : Bytes) : Option Settings.Table := do
  match ← documentOf text with
  | .table entries =>
    if allDistinct (entries.map fun e => spelling e.1) then (rootEntries entries).map loweredTable else none
  | .scalar text plain =>
    match scalarValue text plain with
    | .null => some []
    | _ => none
  | .list _ => none

end Stopwatch.Yaml
