import Stopwatch.Text.Quoted

/-!
Integers as text: the decimal numeral of an integer, and readers for decimal numerals and for numerals that choose
their base by how they begin.
-/

namespace Stopwatch

/-- Why a text is not a number that can be used. -/
inductive NumberReason where
  | malformed
  | outOfRange
  deriving DecidableEq, Repr

/-- The reader that refused a text. -/
inductive NumberReader where
  | decimal
  | integer
  | float
  | truth
  deriving DecidableEq, Repr

/-- A text that could not be read as a number, with the reader that refused it. -/
structure NumberError where
  reader : NumberReader
  text : Bytes
  reason : NumberReason
  deriving DecidableEq, Repr

/-- How messages name a reader. -/
def NumberReader.label : NumberReader → Bytes
  | .decimal => utf8 "strconv.Atoi"
  | .integer => utf8 "strconv.ParseInt"
  | .float => utf8 "strconv.ParseFloat"
  | .truth => utf8 "strconv.ParseBool"

/-- How messages name a reason. -/
def NumberReason.label : NumberReason → Bytes
  | .malformed => utf8 "invalid syntax"
  | .outOfRange => utf8 "value out of range"

def NumberError.message (e : NumberError) : Bytes :=
  e.reader.label ++ utf8 ": parsing " ++ quote e.text ++ utf8 ": " ++ e.reason.label

namespace Integer

/-- The digit of a number below ten. -/
def digit (n : Nat) : UInt8 := (0x30 + n).toUInt8

/-- Writes the digits of `n` in front of `after`; the first argument bounds their number. -/
def writeDigits : Nat → Nat → Bytes → Bytes
  | 0, _, after => after
  | fuel + 1, n, after =>
    if n < 10 then digit n :: after else writeDigits fuel (n / 10) (digit (n % 10) :: after)

/-- The decimal numeral of a natural number. -/
def ofNat (n : Nat) : Bytes := writeDigits (n + 1) n []

/-- The decimal numeral of an integer. -/
def ofInt : Int → Bytes
  | .ofNat n => ofNat n
  | .negSucc n => Ascii.minus :: ofNat (n + 1)

/-- Reads digits of a base onto the value of those before. The first octet that is no digit, or the first one that
takes the value to 2⁶⁴ or more, decides the failure. Underscores are passed over where they are allowed. -/
def readDigits (base : Nat) (underscores : Bool) : Bytes → Nat → Except NumberReason Nat
  | [], n => .ok n
  | b :: rest, n =>
    if underscores && b == Ascii.underscore then readDigits base underscores rest n
    else match Ascii.digitValue? b with
      | none => .error .malformed
      | some d =>
        if base ≤ d then .error .malformed
        else if Nat.pow 2 64 ≤ n * base + d then .error .outOfRange
        else readDigits base underscores rest (n * base + d)

/-- What stands last before the place where underscores are checked. -/
inductive Before where
  | start
  | digit
  | underscore
  | other
  deriving DecidableEq

/-- One step of the check on underscores; `none` once the check has failed. -/
def underscoreStep (hex : Bool) (state : Option Before) (b : UInt8) : Option Before := do
  let before ← state
  if Ascii.isDigit b || (hex && Ascii.isHexDigit b) then some .digit
  else if b == Ascii.underscore then if before = .digit then some .underscore else none
  else if before = .underscore then none
  else some .other

/-- The text after an optional sign. -/
def unsigned : Bytes → Bytes
  | Ascii.minus :: rest => rest
  | Ascii.plus :: rest => rest
  | s => s

/-- Whether every underscore stands between digits, a mark of the base counting as a digit. -/
def underscoresOk (s : Bytes) : Bool :=
  let (hex, first, body) := match unsigned s with
    | Ascii.zero :: x :: rest =>
      let mark := Ascii.lower x
      if mark == 0x62 || mark == 0x6f || mark == 0x78 then (mark == 0x78, Before.digit, rest)
      else (false, Before.start, Ascii.zero :: x :: rest)
    | rest => (false, Before.start, rest)
  match body.foldl (underscoreStep hex) (some first) with
  | none => false
  | some last => last ≠ .underscore

/-- The base that an unsigned numeral announces, with the digits after the announcement. -/
def announced : Bytes → Nat × Bytes
  | Ascii.zero :: x :: y :: rest =>
    let mark := Ascii.lower x
    if mark == 0x62 then (2, y :: rest)
    else if mark == 0x6f then (8, y :: rest)
    else if mark == 0x78 then (16, y :: rest)
    else (8, x :: y :: rest)
  | Ascii.zero :: rest => (8, rest)
  | s => (10, s)

/-- The value of an unsigned numeral in a known base, digits only. -/
def magnitude (base : Nat) (s : Bytes) : Except NumberReason Nat :=
  if s.isEmpty then .error .malformed else readDigits base false s 0

/-- The value of an unsigned numeral that announces its base and may hold underscores. -/
def magnitudeAnyBase (s : Bytes) : Except NumberReason Nat :=
  if s.isEmpty then .error .malformed
  else
    let (base, digits) := announced s
    match readDigits base true digits 0 with
    | .error r => .error r
    | .ok n => if s.contains Ascii.underscore && !underscoresOk s then .error .malformed else .ok n

/-- Puts the sign of a numeral on the value of the rest, within 64 bits. -/
def signed (value : Bytes → Except NumberReason Nat) (s : Bytes) : Except NumberReason Int64 :=
  match value (unsigned s) with
  | .error r => .error r
  | .ok n =>
    if s.head? = some Ascii.minus then
      if Nat.pow 2 63 < n then .error .outOfRange else .ok (Int64.ofInt (-n))
    else if Nat.pow 2 63 ≤ n then .error .outOfRange else .ok (Int64.ofInt n)

/-- Reads a decimal numeral: an optional sign and digits. -/
def read (s : Bytes) : Except NumberError Int64 :=
  (signed (magnitude 10) s).mapError fun r => ⟨.decimal, s, r⟩

/-- Reads a numeral whose beginning tells its base. -/
def readAnyBase (s : Bytes) : Except NumberError Int64 :=
  (signed magnitudeAnyBase s).mapError fun r => ⟨.integer, s, r⟩

end Integer

/-- The decimal numeral of a machine integer. -/
def Integer.ofInt64 (n : Int64) : Bytes := Integer.ofInt n.toInt

/-- Reads the words for true and false. -/
def Truth.read (s : Bytes) : Except NumberError Bool :=
  if ["1", "t", "T", "true", "TRUE", "True"].any fun w => utf8 w == s then .ok true
  else if ["0", "f", "F", "false", "FALSE", "False"].any fun w => utf8 w == s then .ok false
  else .error ⟨.truth, s, .malformed⟩

end Stopwatch
