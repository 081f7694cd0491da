import Stopwatch.Text.Blank

/-!
Files of environment variables. A file is a row of statements, each a name, an equals sign or a colon, and a value up to
the end of the line or in quotes; values may use the variables set before them. One bad statement spoils the whole file.
-/

namespace Stopwatch.DotEnv

/-- Variables with their values, the latest first. -/
abbrev Variables := List (Bytes × Bytes)

/-- Blanks inside a statement: all but the line feed, one octet each. -/
def isInnerBlank (b : UInt8) : Bool :=
  b == 0x09 || b == 0x0b || b == 0x0c || b == 0x0d || b == 0x20 || b == 0x85 || b == 0xa0

/-- Letters and digits among the first 256 characters, by number. -/
def isNameOctet (b : UInt8) : Bool :=
  Ascii.isLetter b || Ascii.isDigit b || b == Ascii.underscore || b == Ascii.dot || b == 0xaa || b == 0xb5 || b == 0xba
    || (0xc0 ≤ b && b != 0xd7 && b != 0xf7) || b == 0xb2 || b == 0xb3 || b == 0xb9 || (0xbc ≤ b && b ≤ 0xbe)

/-- Line ends of two octets become one. -/
def unifyLines : Bytes → Bytes
  | [] => []
  | [b] => [b]
  | a :: b :: rest =>
    if a == Ascii.carriageReturn && b == Ascii.newline then Ascii.newline :: unifyLines rest
    else a :: unifyLines (b :: rest)

/-- The text from the first character that is not blank. -/
def skipBlank (s : Bytes) : Bytes := Bytes.ofGlyphs (s.glyphs.dropWhile Glyph.blank)

/-- Whether a glyph is a blank inside a statement. -/
def innerBlank : Glyph → Bool
  | .char c => c.toNat < 256 && isInnerBlank c.toNat.toUInt8
  | .octet _ => false

/-- The text from the first character that is no blank inside a statement. -/
def skipInner (s : Bytes) : Bytes := Bytes.ofGlyphs (s.glyphs.dropWhile innerBlank)

/-- The text from the next statement on, past blank lines and comments. -/
def statementStart : Nat → Bytes → Option Bytes
  | 0, _ => none
  | fuel + 1, s =>
    match skipBlank s with
    | [] => none
    | Ascii.hash :: rest => statementStart fuel (rest.dropWhile (· != Ascii.newline))
    | s => some s

/-- The text after the word that may stand before a name. -/
def skipExport (s : Bytes) : Bytes :=
  if Bytes.startsWith (utf8 "export") s && (Bytes.glyphs (s.drop 6)).head?.any innerBlank then skipInner (s.drop 6)
  else s

/-- Blank characters at the end dropped. -/
def trimEnd (s : Bytes) : Bytes := Bytes.ofGlyphs (s.glyphs.reverse.dropWhile Glyph.blank).reverse

/-- The name at the start of a statement and the text of its value. A text that ends before the sign has no name, and
is its own value. -/
def name? (s : Bytes) : Option (Bytes × Bytes) :=
  let s := skipExport (skipInner s)
  let name := s.takeWhile fun b => isInnerBlank b || isNameOctet b
  match s.drop name.length with
  | [] => some ([], skipInner s)
  | b :: rest =>
    if b == Ascii.equals || b == Ascii.colon then some (trimEnd name, skipInner rest) else none

def isVariableOctet (b : UInt8) : Bool := Ascii.isUpper b || Ascii.isDigit b || b == Ascii.underscore

/-- What a dollar sign and the text behind it stand for: the length of what it covers, and its variable. -/
def reference (afterDollar : Bytes) : Nat × Bytes :=
  let s := afterDollar
  let paren := if s.head? = some Ascii.openParen then 1 else 0
  let s := s.drop paren
  let brace := if s.head? = some Ascii.openBrace then 1 else 0
  let s := s.drop brace
  let name := s.takeWhile isVariableOctet
  let close := if (s.drop name.length).head? = some Ascii.closeBrace then 1 else 0
  (paren + brace + name.length + close, name)

/-- A value with references replaced; a backslash before a dollar sign takes its meaning away. -/
def expand (vars : Variables) : Nat → Bytes → Bytes → Bytes
  | 0, _, acc => acc.reverse
  | fuel + 1, s, acc =>
    match s with
    | [] => acc.reverse
    | Ascii.backslash :: Ascii.dollar :: rest =>
      let (n, _) := reference rest
      expand vars fuel (rest.drop n) ((Ascii.dollar :: rest.take n).reverse ++ acc)
    | Ascii.dollar :: rest =>
      let (n, name) := reference rest
      let text := if name.isEmpty then Ascii.dollar :: rest.take n else (vars.lookup name).getD []
      expand vars fuel (rest.drop n) (text.reverse ++ acc)
    | b :: rest => expand vars fuel rest (b :: acc)

def expandAll (vars : Variables) (s : Bytes) : Bytes := expand vars (s.length + 1) s []

/-- Line ends written as escapes. -/
def lineEscapes : Bytes → Bytes
  | [] => []
  | [b] => [b]
  | a :: b :: rest =>
    if a == Ascii.backslash && b != Ascii.newline then
      if b == 0x6e then Ascii.newline :: lineEscapes rest
      else if b == 0x72 then Ascii.carriageReturn :: lineEscapes rest
      else a :: b :: lineEscapes rest
    else a :: lineEscapes (b :: rest)

/-- Backslashes dropped, except before a dollar sign. -/
def dropBackslashes : Bytes → Bytes
  | [] => []
  | [b] => [b]
  | a :: b :: rest =>
    if a == Ascii.backslash && b != Ascii.dollar then b :: dropBackslashes rest else a :: dropBackslashes (b :: rest)

/-- The place of the last comment in a line: a hash sign after a blank. -/
def commentStart? (line : List Glyph) : Option Nat :=
  let pairs := (line.zip line.tail).zipIdx
  (pairs.reverse.find? fun ((a, b), _) => b == .char '#' && innerBlank a).map fun (_, i) => i + 1

/-- Characters of a text that are blanks inside a statement dropped at both ends. -/
def trimInner (gs : List Glyph) : List Glyph :=
  ((gs.dropWhile innerBlank).reverse.dropWhile innerBlank).reverse

/-- The value up to the end of the line. -/
def plainValue (vars : Variables) (s : Bytes) : Bytes × Bytes :=
  let line := s.takeWhile fun b => b != Ascii.newline && b != Ascii.carriageReturn
  let glyphs := (Bytes.repaired line).glyphs
  let kept := match commentStart? glyphs with
    | some i => glyphs.take i
    | none => glyphs
  (expandAll vars (Bytes.ofGlyphs (trimInner kept)), s.drop line.length)

/-- The text up to the closing quote, and the text behind it. A backslash hides a quote. -/
def quoted? (quote : UInt8) : Bytes → UInt8 → Bytes → Option (Bytes × Bytes)
  | [], _, _ => none
  | b :: rest, previous, acc =>
    if b == quote && previous != Ascii.backslash then some (acc.reverse, rest)
    else quoted? quote rest b (b :: acc)

/-- Quote signs at both ends dropped. -/
def trimQuotes (quote : UInt8) (s : Bytes) : Bytes :=
  ((s.dropWhile (· == quote)).reverse.dropWhile (· == quote)).reverse

/-- The value of a statement and the text behind it. -/
def value? (vars : Variables) (s : Bytes) : Option (Bytes × Bytes) :=
  match s with
  | [] => some ([], [])
  | q :: rest =>
    if q == Ascii.singleQuote then
      (quoted? q rest q []).map fun (text, after) => (trimQuotes q text, after)
    else if q == Ascii.doubleQuote then
      (quoted? q rest q []).map fun (text, after) =>
        (expandAll vars (dropBackslashes (lineEscapes (trimQuotes q text))), after)
    else some (plainValue vars s)

/-- Reads statements onto the variables set before them. -/
def statements : Nat → Bytes → Variables → Option Variables
  | 0, _, vars => some vars
  | fuel + 1, s, vars =>
    match statementStart (s.length + 1) s with
    | none => some vars
    | some s => do
      let (name, s) ← name? s
      let (value, s) ← value? vars s
      statements fuel s ((name, value) :: vars)

/-- The variables of a file, none if a statement is bad. -/
def read (text : Bytes) : Option Variables :=
  let text := unifyLines text
  statements (text.length + 1) text []

/-- Whether an environment can hold a variable: it needs a name, and neither name nor value may hold a zero octet. -/
def isHoldable (v : Bytes × Bytes) : Bool := !v.1.isEmpty && !v.1.contains Ascii.nul && !v.2.contains Ascii.nul

/-- The first entry of each name, which is the latest. -/
def latestOnly (vars : Variables) : Variables :=
  vars.foldr (fun v later => v :: later.filter fun w => w.1 != v.1) []

/-- An environment with the variables of a file added; those that it already has stay. -/
def extend (environment vars : Variables) : Variables := environment ++ (latestOnly vars).filter isHoldable

end Stopwatch.DotEnv
