import Stopwatch.Wire.Value

/-!
Reading values off the wire. The grammar is strict: blanks between the parts, nothing before or after the value, and
lists and tables inside each other up to a bound.
-/

namespace Stopwatch.Wire

def isBlank (b : UInt8) : Bool :=
  b == Ascii.space || b == Ascii.tab || b == Ascii.newline || b == Ascii.carriageReturn

def skipBlank (s : Bytes) : Bytes := s.dropWhile isBlank

/-- One or more digits and what follows. -/
def digits? (s : Bytes) : Option (Bytes × Bytes) :=
  let digits := s.takeWhile Ascii.isDigit
  if digits.isEmpty then none else some (digits, s.dropWhile Ascii.isDigit)

/-- The whole part of a number: a zero alone, or digits that do not start with one. -/
def whole? : Bytes → Option (Bytes × Bytes)
  | Ascii.zero :: rest => some ([Ascii.zero], rest)
  | s => digits? s

/-- The places after the point, if there is a point. -/
def places? : Bytes → Option (Bytes × Bytes)
  | Ascii.dot :: rest => (digits? rest).map fun (digits, rest) => (Ascii.dot :: digits, rest)
  | s => some ([], s)

/-- The exponent, if there is one. -/
def exponent? : Bytes → Option (Bytes × Bytes)
  | b :: rest =>
    if b == 0x65 || b == 0x45 then
      match rest with
      | c :: after =>
        if c == Ascii.plus || c == Ascii.minus then
          (digits? after).map fun (digits, rest) => (b :: c :: digits, rest)
        else (digits? rest).map fun (digits, rest) => (b :: digits, rest)
      | [] => none
    else some ([], b :: rest)
  | [] => some ([], [])

/-- A number literal and what follows. -/
def number? (s : Bytes) : Option (Bytes × Bytes) := do
  let (sign, s) := match s with
    | Ascii.minus :: rest => ([Ascii.minus], rest)
    | s => ([], s)
  let (whole, s) ← whole? s
  let (places, s) ← places? s
  let (exponent, s) ← exponent? s
  some (sign ++ whole ++ places ++ exponent, s)

/-- What follows a fixed word. -/
def after? (word s : Bytes) : Option Bytes := if Bytes.startsWith word s then some (s.drop word.length) else none

/-- How far lists and tables may stand inside each other. -/
def maxDepth : Nat := 10000

mutual

/-- Reads a value. The first argument bounds the steps, the second the depth. -/
def readValue : Nat → Nat → Bytes → Option (Value × Bytes)
  | 0, _, _ => none
  | fuel + 1, depth, s =>
    match s with
    | [] => none
    | b :: rest =>
      if b == Ascii.doubleQuote then (readText rest).map fun (t, rest) => (.text t, rest)
      else if b == Ascii.openBracket then
        if depth = 0 then none
        else
          match skipBlank rest with
          | Ascii.closeBracket :: rest => some (.list [], rest)
          | rest => readItems fuel (depth - 1) rest []
      else if b == Ascii.openBrace then
        if depth = 0 then none
        else
          match skipBlank rest with
          | Ascii.closeBrace :: rest => some (.table [], rest)
          | rest => readEntries fuel (depth - 1) rest []
      else if b == 0x6e then (after? (utf8 "null") s).map fun rest => (.null, rest)
      else if b == 0x74 then (after? (utf8 "true") s).map fun rest => (.truth true, rest)
      else if b == 0x66 then (after? (utf8 "false") s).map fun rest => (.truth false, rest)
      else (number? s).map fun (literal, rest) => (.number literal, rest)

/-- Reads items up to the closing bracket, onto those read before. -/
def readItems : Nat → Nat → Bytes → List Value → Option (Value × Bytes)
  | 0, _, _, _ => none
  | fuel + 1, depth, s, seen =>
    match readValue fuel depth s with
    | none => none
    | some (v, rest) =>
      match skipBlank rest with
      | Ascii.closeBracket :: rest => some (.list (v :: seen).reverse, rest)
      | Ascii.comma :: rest => readItems fuel depth (skipBlank rest) (v :: seen)
      | _ => none

/-- Reads entries up to the closing brace, onto those read before. -/
def readEntries : Nat → Nat → Bytes → List (Bytes × Value) → Option (Value × Bytes)
  | 0, _, _, _ => none
  | fuel + 1, depth, s, seen =>
    match s with
    | Ascii.doubleQuote :: rest =>
      match readText rest with
      | none => none
      | some (key, rest) =>
        match skipBlank rest with
        | Ascii.colon :: rest =>
          match readValue fuel depth (skipBlank rest) with
          | none => none
          | some (v, rest) =>
            match skipBlank rest with
            | Ascii.closeBrace :: rest => some (.table ((key, v) :: seen).reverse, rest)
            | Ascii.comma :: rest => readEntries fuel depth (skipBlank rest) ((key, v) :: seen)
            | _ => none
        | _ => none
    | _ => none

end

/-- The value that a text holds, with nothing but blanks around it. -/
def Value.parse (s : Bytes) : Option Value :=
  match readValue (2 * s.length + 2) maxDepth (skipBlank s) with
  | some (v, rest) => if (skipBlank rest).isEmpty then some v else none
  | none => none

end Stopwatch.Wire
