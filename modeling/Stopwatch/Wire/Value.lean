import Stopwatch.Wire.Text

/-!
Values on the wire: null, truth values, number literals, texts, lists and tables. A table keeps its entries in the order
in which they stand, repeated keys included.
-/

namespace Stopwatch.Wire

inductive Value where
  | null
  | truth (b : Bool)
  | number (literal : Bytes)
  | text (s : Bytes)
  | list (items : List Value)
  | table (entries : List (Bytes × Value))
  deriving Repr, Inhabited

mutual

/-- A value as it goes over the wire, without any blanks. -/
def Value.render : Value → Bytes
  | .null => utf8 "null"
  | .truth b => if b then utf8 "true" else utf8 "false"
  | .number literal => literal
  | .text s => writeText s
  | .list items => Ascii.openBracket :: (renderItems items ++ [Ascii.closeBracket])
  | .table entries => Ascii.openBrace :: (renderEntries entries ++ [Ascii.closeBrace])

/-- Items with commas between them. -/
def renderItems : List Value → Bytes
  | [] => []
  | [v] => v.render
  | v :: rest => v.render ++ (Ascii.comma :: renderItems rest)

/-- Entries with commas between them. -/
def renderEntries : List (Bytes × Value) → Bytes
  | [] => []
  | [(key, v)] => writeText key ++ (Ascii.colon :: v.render)
  | (key, v) :: rest => writeText key ++ (Ascii.colon :: (v.render ++ (Ascii.comma :: renderEntries rest)))

end

end Stopwatch.Wire
