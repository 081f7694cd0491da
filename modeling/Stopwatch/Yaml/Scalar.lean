import Stopwatch.Yaml.Cursor

/-!
The texts of scalars: plain, in quotes, and in blocks. Line breaks inside a scalar fold: one becomes a space, and of
more than one the first is dropped.
-/

namespace Stopwatch.Yaml

/-- Blanks and breaks between two words of a scalar, each list in reverse. -/
structure Gap where
  blanks : List Char := []
  lead : List Char := []
  trail : List Char := []
  /-- Whether a break was among them. -/
  broken : Bool := false

namespace Gap

/-- What a gap stands for between two words, in reverse. -/
def text (g : Gap) : List Char :=
  if g.broken then
    if g.lead = ['\n'] then (if g.trail.isEmpty then [' '] else g.trail) else g.trail ++ g.lead
  else g.blanks

/-- Reads blanks and breaks. A tab before the column `indent` on a later line is refused if `strict` says so. -/
def read (strict : Option Nat) : Nat → Cursor → Gap → Option (Gap × Cursor)
  | 0, c, g => some (g, c)
  | fuel + 1, c, g =>
    match c.peek with
    | none => some (g, c)
    | some x =>
      if isSpaceOrTab x then
        if g.broken then
          if x = '\t' && strict.any fun indent => c.column < indent then none
          else read strict fuel c.skip g
        else read strict fuel c.skip { g with blanks := x :: g.blanks }
      else if isBreak x then
        let (b, next) := c.readBreak
        if g.broken then read strict fuel next { g with trail := b ++ g.trail }
        else read strict fuel next { lead := b, broken := true }
      else some (g, c)

end Gap

/-- A scalar that has been read: its text, where it ends, and whether a key may start there. -/
structure Scanned where
  text : Bytes
  cursor : Cursor
  keyAllowed : Bool := false

/-- Whether a plain scalar stops before the next character. -/
def endsPlain (inFlow : Bool) (c : Cursor) : Bool :=
  match c.peek with
  | none => true
  | some x =>
    isSpaceOrTab x || isBreak x || (x = ':' && c.gapAfter)
      || (inFlow && (x = ',' || x = '?' || x = '[' || x = ']' || x = '\x7b' || x = '\x7d'))

/-- The characters of one word of a plain scalar, onto those read before. -/
def plainWord (inFlow : Bool) : Nat → Cursor → List Char → List Char × Cursor
  | 0, c, acc => (acc, c)
  | fuel + 1, c, acc =>
    if endsPlain inFlow c then (acc, c)
    else plainWord inFlow fuel c.skip (c.rest.take 1 ++ acc)

/-- The words of a plain scalar. No loop is longer than `bound`. -/
def plainWords (bound indent : Nat) (inFlow : Bool) : Nat → Cursor → List Char → Gap → Option Scanned
  | 0, _, _, _ => none
  | fuel + 1, c, acc, gap =>
    let finish (cursor : Cursor) (acc : List Char) (broken : Bool) : Option Scanned :=
      some { text := Bytes.ofChars acc.reverse, cursor, keyAllowed := broken }
    if c.lacks 4 then none
    else if c.atAnyDocumentMark || c.isAt '#' then finish c acc gap.broken
    else
      let (word, c') := plainWord inFlow bound c []
      let (acc, broken) := if word.isEmpty then (acc, gap.broken) else (word ++ gap.text ++ acc, false)
      if c'.lacks 2 then none
      else if c'.atBlank || c'.atBreak then do
        let start : Gap := if word.isEmpty then gap else {}
        let (gap, next) ← Gap.read (some indent) bound c' start
        if !inFlow && next.column < indent then finish next acc gap.broken
        else plainWords bound indent inFlow fuel next acc gap
      else finish c' acc broken

/-- A plain scalar inside a block of the given indentation. -/
def scanPlain (bound indent : Nat) (inFlow : Bool) (c : Cursor) : Option Scanned :=
  plainWords bound indent inFlow bound c [] {}

/-- The character of a hexadecimal escape of so many digits. -/
def hexEscape (width : Nat) (c : Cursor) : Option (Char × Cursor) := do
  let digits := c.rest.take width
  if digits.length < width then none
  else
    let values ← digits.mapM fun d => if d.toNat < 0x80 then
      (Ascii.digitValue? d.toNat.toUInt8).filter (· < 16) else none
    let n := values.foldl (fun n v => n * 16 + v) 0
    if n.isValidChar then some (Char.ofNat n, Cursor.skipMany width c) else none

/-- The character that a letter after a backslash stands for. -/
def simpleEscape? : Char → Option Char
  | '0' => some '\x00'
  | 'a' => some '\x07'
  | 'b' => some '\x08'
  | 't' => some '\t'
  | '\t' => some '\t'
  | 'n' => some '\n'
  | 'v' => some '\x0b'
  | 'f' => some '\x0c'
  | 'r' => some '\r'
  | 'e' => some '\x1b'
  | ' ' => some ' '
  | '"' => some '"'
  | '\'' => some '\''
  | '\\' => some '\\'
  | 'N' => some '\u0085'
  | '_' => some '\u00a0'
  | 'L' => some '\u2028'
  | 'P' => some '\u2029'
  | _ => none

/-- The escape at a backslash. -/
def readEscape (c : Cursor) : Option (Char × Cursor) :=
  match c.peekSecond with
  | some 'x' => hexEscape 2 (Cursor.skipMany 2 c)
  | some 'u' => hexEscape 4 (Cursor.skipMany 2 c)
  | some 'U' => hexEscape 8 (Cursor.skipMany 2 c)
  | some x => (simpleEscape? x).map fun y => (y, Cursor.skipMany 2 c)
  | none => none

/-- How a word inside quotes ends: at the quote, at a gap, or at an escaped line break. -/
structure QuotedWord where
  chars : List Char
  cursor : Cursor
  escapedBreak : Bool := false

/-- One word inside quotes, onto the characters read before. -/
def quotedWord (single : Bool) : Nat → Cursor → List Char → Option QuotedWord
  | 0, c, acc => some { chars := acc, cursor := c }
  | fuel + 1, c, acc =>
    match c.peek with
    | none => some { chars := acc, cursor := c }
    | some x =>
      if isSpaceOrTab x || isBreak x then some { chars := acc, cursor := c }
      else if single && x = '\'' then
        if c.peekSecond = some '\'' then quotedWord single fuel (Cursor.skipMany 2 c) ('\'' :: acc)
        else some { chars := acc, cursor := c }
      else if !single && x = '"' then some { chars := acc, cursor := c }
      else if !single && x = '\\' then
        if c.peekSecond.any isBreak then
          some { chars := acc, cursor := c.skip.readBreak.2, escapedBreak := true }
        else
          match readEscape c with
          | some (y, next) => quotedWord single fuel next (y :: acc)
          | none => none
      else quotedWord single fuel c.skip (x :: acc)

/-- The words inside quotes, up to the closing one. -/
def quotedWords (bound : Nat) (single : Bool) : Nat → Cursor → List Char → Option Scanned
  | 0, _, _ => none
  | fuel + 1, c, acc =>
    if c.lacks 4 || c.atAnyDocumentMark || c.atEnd then none
    else do
      let word ← quotedWord single bound c acc
      if !word.escapedBreak && word.cursor.isAt (if single then '\'' else '"') then
        some { text := Bytes.ofChars word.chars.reverse, cursor := word.cursor.skip }
      else
        let (gap, next) ← Gap.read none bound word.cursor { broken := word.escapedBreak }
        quotedWords bound single fuel next (gap.text ++ word.chars)

/-- A scalar in quotes, from its opening quote. -/
def scanQuoted (bound : Nat) (single : Bool) (c : Cursor) : Option Scanned :=
  quotedWords bound single bound c.skip []

/-- What becomes of the breaks at the end of a block scalar. -/
inductive Chomp where
  | strip
  | clip
  | keep
  deriving DecidableEq

/-- The signs after the mark of a block scalar: the chomping and the indentation, if they are given. -/
def blockHeader (c : Cursor) : Option (Chomp × Nat × Cursor) :=
  let chomp? (c : Cursor) : Option Chomp :=
    if c.isAt '+' then some .keep else if c.isAt '-' then some .strip else none
  let digit? (c : Cursor) : Option Nat := (c.peek.filter Char.isDigit).map fun d => d.toNat - 48
  let checked (chomp : Chomp) (width : Option Nat) (c : Cursor) : Option (Chomp × Nat × Cursor) :=
    if width = some 0 then none else some (chomp, width.getD 0, if width.isSome then c.skip else c)
  match chomp? c with
  | some chomp => checked chomp (digit? c.skip) c.skip
  | none =>
    match checked .clip (digit? c) c with
    | none => none
    | some (_, width, next) =>
      match (if 0 < width then chomp? next else none) with
      | some chomp => some (chomp, width, next.skip)
      | none => some (.clip, width, next)

/-- Past the indentation and the empty lines before a line of a block scalar. Gives the breaks in reverse and the
widest indentation seen; an indentation of zero is not known yet. -/
def blockBreaks (indent : Nat) : Nat → Cursor → Nat → List Char → Option (List Char × Nat × Cursor)
  | 0, c, widest, breaks => some (breaks, widest, c)
  | fuel + 1, c, widest, breaks =>
    let spaces := (c.rest.takeWhile (· = ' ')).length
    let take := if indent = 0 then spaces else min spaces (indent - c.column)
    let c := Cursor.skipMany take c
    let widest := max widest c.column
    if (indent = 0 || c.column < indent) && c.isAt '\t' then none
    else if c.atBreak then
      let (b, next) := c.readBreak
      blockBreaks indent fuel next widest (b ++ breaks)
    else some (breaks, widest, c)

/-- The state between the lines of a block scalar, every text in reverse. -/
structure BlockText where
  text : List Char := []
  lead : List Char := []
  trail : List Char := []
  afterBlank : Bool := false

/-- The lines of a block scalar. -/
def blockLines (bound : Nat) (literal : Bool) (indent : Nat) : Nat → Cursor → BlockText → Option (BlockText × Cursor)
  | 0, c, b => some (b, c)
  | fuel + 1, c, b =>
    if c.column = indent && !c.atEnd then do
      let blank := c.atBlank
      let folded := !literal && !b.afterBlank && !blank && b.lead = ['\n']
      let joint := if folded then (if b.trail.isEmpty then [' '] else []) else b.lead
      let line := c.rest.takeWhile fun x => !isBreak x
      let text := line.reverse ++ b.trail ++ joint ++ b.text
      let (lead, next) := c.skipToBreak.readBreak
      let (trail, _, next) ← blockBreaks indent bound next 0 []
      blockLines bound literal indent fuel next { text, lead, trail, afterBlank := blank }
    else some (b, c)

/-- A block scalar from its mark, inside a block of the given indentation (−1 outside of all). -/
def scanBlock (bound : Nat) (literal : Bool) (outer : Int) (c : Cursor) : Option Scanned := do
  let (chomp, width, c) ← blockHeader c.skip
  let c := c.skipWhile isSpaceOrTab
  let c := if c.isAt '#' then c.skipToBreak else c
  if !(c.atEnd || c.atBreak) then none
  else
    let c := if c.atBreak then c.readBreak.2 else c
    let given := if width = 0 then 0 else if 0 ≤ outer then outer.toNat + width else width
    let (trail, widest, c) ← blockBreaks given bound c 0 []
    let indent := if given = 0 then max (max widest (outer + 1).toNat) 1 else given
    let (b, c) ← blockLines bound literal indent bound c { trail }
    let text := if chomp = .strip then b.text else b.lead ++ b.text
    let text := if chomp = .keep then b.trail ++ text else text
    some { text := Bytes.ofChars text.reverse, cursor := c, keyAllowed := true }

end Stopwatch.Yaml
