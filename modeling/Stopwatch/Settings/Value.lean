import Stopwatch.Number.Integer
import Stopwatch.Number.Layout

/-!
The values that settings can have before their types are known, with the names of their types and the form in which
error messages show them.
-/

namespace Stopwatch.Settings

/-- A value of a setting. -/
inductive Value where
  | null
  | bool (b : Bool)
  | int (n : Int64)
  /-- A whole number above the signed range. -/
  | natural (n : UInt64)
  | float (x : Float)
  | text (s : Bytes)
  /-- A date, by its text. -/
  | moment (s : Bytes)
  | list (items : List Value)
  | table (entries : List (Bytes × Value))
  /-- A table whose keys are not all texts. -/
  | mixed (entries : List (Value × Value))
  deriving Inhabited, Repr

/-- The entries of a table. -/
abbrev Table := List (Bytes × Value)

namespace Value

/-- The name of the type of a value. -/
def typeName : Value → Bytes
  | .null => utf8 "<nil>"
  | .bool _ => utf8 "bool"
  | .int _ => utf8 "int"
  | .natural _ => utf8 "uint64"
  | .float _ => utf8 "float64"
  | .text _ => utf8 "string"
  | .moment _ => utf8 "time.Time"
  | .list _ => utf8 "[]interface \x7b\x7d"
  | .table _ => utf8 "map[string]interface \x7b\x7d"
  | .mixed _ => utf8 "map[interface \x7b\x7d]interface \x7b\x7d"

/-- The word for the shape of a value. -/
def shapeName : Value → Bytes
  | .list _ => utf8 "slice"
  | .table _ => utf8 "map"
  | .mixed _ => utf8 "map"
  | .moment _ => utf8 "struct"
  | v => v.typeName

/-- The order of keys: nothing, truth values, whole numbers, fractions and texts, each by value. -/
def keyBefore : Value → Value → Bool
  | .null, _ => true
  | .bool a, .bool b => !a || b
  | .bool _, v => !(v matches .null)
  | .int a, .int b => a ≤ b
  | .int _, v => !(v matches .null | .bool _)
  | .natural a, .natural b => a ≤ b
  | .natural _, v => !(v matches .null | .bool _ | .int _)
  | .float a, .float b => a ≤ b
  | .float _, v => !(v matches .null | .bool _ | .int _ | .natural _)
  | .text a, .text b => !(b < a)
  | .text _, v => !(v matches .null | .bool _ | .int _ | .natural _ | .float _)
  | _, _ => false

mutual

/-- A value as messages show it; the entries of a table are sorted by key. -/
def shown : Value → Bytes
  | .null => utf8 "<nil>"
  | .bool b => if b then utf8 "true" else utf8 "false"
  | .int n => Integer.ofInt64 n
  | .natural n => Integer.ofNat n.toNat
  | .float x => Layout.general x
  | .text s => s
  | .moment s => s
  | .list items => utf8 "[" ++ Bytes.join [Ascii.space] (shownItems items) ++ utf8 "]"
  | .table entries =>
    let sorted := (shownEntries entries).mergeSort fun a b => !(b.1 < a.1)
    utf8 "map[" ++ Bytes.join [Ascii.space] (sorted.map fun (key, value) => key ++ [Ascii.colon] ++ value) ++ utf8 "]"
  | .mixed entries =>
    let sorted := (shownPairs entries).mergeSort fun a b => keyBefore a.1 b.1
    utf8 "map[" ++ Bytes.join [Ascii.space] (sorted.map Prod.snd) ++ utf8 "]"

def shownItems : List Value → List Bytes
  | [] => []
  | v :: rest => shown v :: shownItems rest

def shownEntries : List (Bytes × Value) → List (Bytes × Bytes)
  | [] => []
  | (key, v) :: rest => (key, shown v) :: shownEntries rest

/-- The entries of a mixed table, each with its key in front. -/
def shownPairs : List (Value × Value) → List (Value × Bytes)
  | [] => []
  | (key, v) :: rest => (key, shown key ++ [Ascii.colon] ++ shown v) :: shownPairs rest

end

end Value

namespace Table

/-- The value of a key; the last entry counts. -/
def get? (t : Table) (key : Bytes) : Option Value :=
  (t.reverse.find? fun e => e.1 == key).map Prod.snd

/-- The table with a new value for a key. -/
def put (t : Table) (key : Bytes) (v : Value) : Table :=
  (t.filter fun e => e.1 != key) ++ [(key, v)]

end Table

end Stopwatch.Settings
