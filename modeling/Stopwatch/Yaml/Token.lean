import Std.Data.TreeMap
import Stopwatch.Yaml.Scalar

/-!
The tokens of a YAML text. Indentation becomes start and end tokens of blocks, and a key without a mark of its own is
recognised when its colon comes: the tokens that announce it are then put in front of it. Tokens are scanned when they
are asked for, a few ahead of the one that is, so that trouble behind the end of a document shows only if it is near.
-/

namespace Stopwatch.Yaml

inductive Token where
  | version (major minor : Nat)
  | handle (name : Bytes)
  | documentStart
  | documentEnd
  | blockSequence
  | blockMapping
  | blockEnd
  | flowSequence
  | flowSequenceEnd
  | flowMapping
  | flowMappingEnd
  | blockEntry
  | flowEntry
  | key
  | value
  | alias
  | anchor
  | tag (name : Bytes)
  | scalar (text : Bytes) (plain : Bool)
  | streamEnd
  deriving DecidableEq, Repr, Inhabited

/-- A place where a key may have started, by the number of its token and its position. A required one must turn out to
be a key. -/
structure Candidate where
  possible : Bool := false
  required : Bool := false
  number : Nat := 0
  index : Nat := 0
  line : Nat := 0
  column : Nat := 0
  deriving Inhabited

/-- A scan under way. -/
structure Scan where
  cursor : Cursor
  /-- More than there are characters; no loop is longer. -/
  bound : Nat
  /-- Up to this index, the first character of each line is passed over. -/
  marked : Nat := 0
  /-- The tokens so far, and how many of them have been taken. -/
  tokens : Array Token := #[]
  taken : Nat := 0
  /-- The indentation of the innermost block, and of those around it. -/
  indent : Int := -1
  outer : List Int := []
  blocks : Nat := 0
  /-- The candidate outside of all brackets, and one for each open bracket, the innermost last. -/
  levels : Array Candidate := #[{}]
  /-- The levels of the candidates, by the numbers of their tokens. -/
  levelOf : Std.TreeMap Nat Nat := {}
  keyAllowed : Bool := true

/-- How deep blocks may be nested, and brackets. -/
def maxDepth : Nat := 10000

namespace Scan

def inFlow (s : Scan) : Bool := 1 < s.levels.size

def column (s : Scan) : Int := s.cursor.column

def push (s : Scan) (t : Token) : Scan := { s with tokens := s.tokens.push t }

/-- Puts a token in front of the one with a number; if that has been taken already, it comes last. -/
def putAt (s : Scan) (number : Nat) (t : Token) : Scan :=
  if number < s.taken then s.push t else { s with tokens := s.tokens.insertIdxIfInBounds number t }

/-- Past so many characters, with a token for them. -/
def pushOver (s : Scan) (n : Nat) (t : Token) : Scan := { s with cursor := Cursor.skipMany n s.cursor }.push t

/-- Ends the blocks that are indented more than a column. -/
def unroll (column : Int) : List Int → Scan → Scan
  | [], s => s
  | previous :: rest, s =>
    if s.indent ≤ column then s
    else unroll column rest { s.push .blockEnd with indent := previous, outer := rest, blocks := s.blocks - 1 }

/-- Ends the blocks that are indented more than a column, unless a bracket is open. -/
def unrollTo (s : Scan) (column : Int) : Scan := if s.inFlow then s else unroll column s.outer s

/-- Starts a block at a column, in front of a token, if it is indented more than the current one. -/
def roll (s : Scan) (column : Int) (number : Nat) (t : Token) : Option Scan :=
  if s.inFlow || column ≤ s.indent then some s
  else if maxDepth ≤ s.blocks then none
  else some { s.putAt number t with indent := column, outer := s.indent :: s.outer, blocks := s.blocks + 1 }

/-- The innermost candidate. -/
def candidate (s : Scan) : Candidate := s.levels.back?.getD {}

def setCandidate (s : Scan) (level : Nat) (k : Candidate) : Scan := { s with levels := s.levels.setIfInBounds level k }

/-- Gives up the innermost candidate; a required one was no key after all. -/
def dropCandidate (s : Scan) : Option Scan :=
  let k := s.candidate
  if !k.possible then some s
  else if k.required then none
  else some { s.setCandidate (s.levels.size - 1) { k with possible := false } with levelOf := s.levelOf.erase k.number }

/-- Notes that a key may start here. -/
def noteCandidate (s : Scan) : Option Scan :=
  if s.keyAllowed then do
    let s ← s.dropCandidate
    let level := s.levels.size - 1
    let k : Candidate :=
      { possible := true
        required := !s.inFlow && s.indent = s.column
        number := s.tokens.size
        index := s.cursor.index
        line := s.cursor.line
        column := s.cursor.column }
    some { s.setCandidate level k with levelOf := s.levelOf.insert k.number level }
  else some s

/-- Whether the candidate of a level can still be a key: it must lie on the same line and not too far back. -/
def isFresh (s : Scan) (level : Nat) : Option (Bool × Scan) :=
  let k := s.levels.getD level {}
  if !k.possible then some (false, s)
  else if k.line < s.cursor.line || k.index + 1024 < s.cursor.index then
    if k.required then none else some (false, s.setCandidate level { k with possible := false })
  else some (true, s)

/-- Past blanks, comments and breaks. A tab is no blank where a key may start. -/
def toNextToken : Nat → Scan → Scan
  | 0, s => s
  | fuel + 1, s =>
    let c := s.cursor
    let c := if c.column = 0 && c.index < s.marked then c.skip else c
    let tabs := s.inFlow || !s.keyAllowed
    let c := c.skipWhile fun x => x = ' ' || (tabs && x = '\t')
    let c := if c.isAt '#' then c.skipComments s.bound else c
    if c.atBreak then
      toNextToken fuel { s with cursor := c.readBreak.2, keyAllowed := s.keyAllowed || !s.inFlow }
    else { s with cursor := c }

def openFlow (s : Scan) (t : Token) : Option Scan := do
  let s ← s.noteCandidate
  if maxDepth < s.levels.size then none
  else
    let s := { s with levels := s.levels.push { number := s.tokens.size }, keyAllowed := true }
    some (s.pushOver 1 t)

def closeFlow (s : Scan) (t : Token) : Option Scan := do
  let s ← s.dropCandidate
  let s := if s.inFlow then
      { s with levels := s.levels.pop, levelOf := s.levelOf.erase s.candidate.number }
    else s
  some { s.pushOver 1 t with keyAllowed := false }

def flowEntry (s : Scan) : Option Scan := do
  let s ← s.dropCandidate
  some { s.pushOver 1 .flowEntry with keyAllowed := true }

def blockEntry (s : Scan) : Option Scan :=
  if !s.inFlow && !s.keyAllowed then none
  else do
    let s ← s.roll s.column s.tokens.size .blockSequence
    let s ← s.dropCandidate
    some { s.pushOver 1 .blockEntry with keyAllowed := true }

def explicitKey (s : Scan) : Option Scan :=
  if !s.inFlow && !s.keyAllowed then none
  else do
    let s ← s.roll s.column s.tokens.size .blockMapping
    let s ← s.dropCandidate
    some { s.pushOver 1 .key with keyAllowed := !s.inFlow }

/-- The colon after a key. -/
def value (s : Scan) : Option Scan := do
  let level := s.levels.size - 1
  let (fresh, s) ← s.isFresh level
  if fresh then
    let k := s.candidate
    let s ← (s.putAt k.number .key).roll k.column k.number .blockMapping
    let s := { s.setCandidate level { k with possible := false } with levelOf := s.levelOf.erase k.number }
    some { s.pushOver 1 .value with keyAllowed := false }
  else if !s.inFlow && !s.keyAllowed then none
  else
    let s ← s.roll s.column s.tokens.size .blockMapping
    some { s.pushOver 1 .value with keyAllowed := !s.inFlow }

/-- The characters of the name of an anchor, a handle or a directive. -/
def isNameChar (x : Char) : Bool := x.isAlphanum || x = '_' || x = '-'

/-- The name after the mark of an anchor or an alias. -/
def anchorName (s : Scan) (t : Token) : Option Scan := do
  let s ← s.noteCandidate
  let c := s.cursor.skip
  let next := c.skipWhile isNameChar
  let closed := next.atGap || next.peek.any fun x => "?:,]\x7d%@".toList.contains x || x = '\x60'
  if next.column = c.column || !closed then none
  else some { { s with cursor := next }.push t with keyAllowed := false }

def tag (s : Scan) : Option Scan := do
  let s ← s.noteCandidate
  let name := s.cursor.rest.takeWhile fun x =>
    !(isSpaceOrTab x || isBreak x || (s.inFlow && ",[]\x7b\x7d".toList.contains x))
  let next := Cursor.skipMany name.length s.cursor
  some { { s with cursor := next }.push (.tag (Bytes.ofChars name)) with keyAllowed := false }

/-- Takes over a scalar that was read. -/
def takeScalar (s : Scan) (plain : Bool) (r : Option Scanned) : Option Scan := do
  let r ← r
  some { { s with cursor := r.cursor }.push (.scalar r.text plain) with keyAllowed := r.keyAllowed }

/-- Leaves all blocks, before a mark that stands between documents. -/
def leaveAll (s : Scan) : Option Scan := do
  let s ← (s.unrollTo (-1)).dropCandidate
  some { s with keyAllowed := false }

/-- A part of a version: one digit or two. -/
def versionPart (c : Cursor) : Option (Nat × Cursor) :=
  let digits := c.rest.takeWhile Char.isDigit
  if digits.isEmpty || 2 < digits.length then none
  else some (digits.foldl (fun n d => n * 10 + (d.toNat - 48)) 0, Cursor.skipMany digits.length c)

/-- The two parts of a version. -/
def version (c : Cursor) : Option (Token × Cursor) := do
  let (major, c) ← versionPart c
  if !c.isAt '.' then none
  else
    let (minor, c) ← versionPart c.skip
    some (.version major minor, c)

/-- A handle for tags with what it stands for. -/
def handle (c : Cursor) : Option (Token × Cursor) :=
  if !c.isAt '!' then none
  else
    let name := c.rest.tail.takeWhile isNameChar
    let next := Cursor.skipMany (name.length + 1) c
    let (closed, next) := if next.isAt '!' then (true, next.skip) else (name.isEmpty, next)
    let start := next.skipWhile isSpaceOrTab
    let stop := start.skipWhile fun x => !(isSpaceOrTab x || isBreak x)
    if !closed || !next.atBlank || stop.column = start.column then none
    else some (.handle (Bytes.ofChars name), stop)

/-- A line that instructs the reader. Only a comment may follow on the line. -/
def directive (s : Scan) : Option Scan := do
  let s ← s.leaveAll
  let c := s.cursor.skip
  let name := c.rest.takeWhile isNameChar
  let c := Cursor.skipMany name.length c
  if !c.atGap then none
  else
    let c := c.skipWhile isSpaceOrTab
    let (t, c) ← if name = "YAML".toList then version c else if name = "TAG".toList then handle c else none
    let c := c.skipWhile isSpaceOrTab
    let c := if c.isAt '#' then c.skipToBreak else c
    if c.atBreak then some ({ s with cursor := c.readBreak.2 }.push t)
    else if c.atEnd then some ({ s with cursor := c }.push t)
    else none

/-- Whether a plain scalar can start with the next character. -/
def startsPlain (s : Scan) (x : Char) : Bool :=
  !(isSpaceOrTab x || isBreak x || "-?:,[]\x7b\x7d#&*!|>'\"%@".toList.contains x || x = '\x60')
    || (x = '-' && !s.cursor.skip.atBlank)
    || (!s.inFlow && (x = '?' || x = ':') && !s.cursor.gapAfter)

/-- Past a comment that follows on the line. -/
def skipLineComment (s : Scan) : Option Scan :=
  let blanks := (s.cursor.rest.takeWhile isSpaceOrTab).length
  let c := Cursor.skipMany blanks s.cursor
  if c.lacks 1 then none
  else if blanks < Cursor.commentReach && c.isAt '#' then
    let c := c.skipToBreak
    if c.lacks 1 then none else some { s with cursor := c }
  else some s

/-- The token that starts with a character at the current place. -/
def token (s : Scan) (x : Char) : Option Scan :=
  let c := s.cursor
  let followed (r : Option Scan) : Option Scan := r.bind skipLineComment
  let unfollowed (r : Option Scan) : Option Scan := r.filter fun s => !s.cursor.lacks 1
  let scalar (r : Option Scan) : Option Scan :=
    r.bind fun s => if s.keyAllowed then unfollowed (some s) else s.skipLineComment
  if c.column = 0 && x = '%' then s.directive
  else if c.atDocumentMark '-' then s.leaveAll.map fun s => s.pushOver 3 .documentStart
  else if c.atDocumentMark '.' then s.leaveAll.map fun s => s.pushOver 3 .documentEnd
  else if x = '[' then followed (s.openFlow .flowSequence)
  else if x = '\x7b' then followed (s.openFlow .flowMapping)
  else if x = ']' then followed (s.closeFlow .flowSequenceEnd)
  else if x = '\x7d' then followed (s.closeFlow .flowMappingEnd)
  else if x = ',' then followed s.flowEntry
  else if x = '-' && c.gapAfter then s.blockEntry
  else if x = '?' && (s.inFlow || c.gapAfter) then followed s.explicitKey
  else if x = ':' && (s.inFlow || c.gapAfter) then followed s.value
  else if x = '*' then followed (s.anchorName .alias)
  else if x = '&' then followed (s.anchorName .anchor)
  else if x = '!' then followed s.tag
  else if (x = '|' || x = '>') && !s.inFlow then
    scalar (s.dropCandidate.bind fun s => s.takeScalar false (scanBlock s.bound (x = '|') s.indent c))
  else if x = '\'' || x = '"' then
    scalar (s.noteCandidate.bind fun s => s.takeScalar false (scanQuoted s.bound (x = '\'') c))
  else if s.startsPlain x then
    scalar (s.noteCandidate.bind fun s => s.takeScalar true (scanPlain s.bound (s.indent + 1).toNat s.inFlow c))
  else none

/-- Scans the next token. Behind the last one, the end comes again and again. -/
def next (s : Scan) : Option Scan :=
  let s := toNextToken s.bound s
  let s := s.unrollTo s.column
  if s.cursor.lacks 4 then none
  else
    match s.cursor.peek with
    | none => s.leaveAll.map fun s => s.push .streamEnd
    | some x => s.token x

/-- Scans as far as it takes to know the next token to be taken: two tokens more, and past the line if a key may have
started with it. -/
def lookAhead : Nat → Scan → Option Scan
  | 0, _ => none
  | fuel + 1, s =>
    if s.tokens.size ≤ s.taken + 2 then s.next.bind (lookAhead fuel)
    else
      match s.levelOf[s.taken]? with
      | none => some s
      | some level => do
        let (fresh, s) ← s.isFresh level
        if fresh then s.next.bind (lookAhead fuel) else some s

/-- The next token to be taken. -/
def peek (s : Scan) : Option (Token × Scan) := do
  let s ← lookAhead s.bound s
  let t ← s.tokens[s.taken]?
  some (t, s)

/-- Takes a token. -/
def take (s : Scan) : Scan := { s with taken := s.taken + 1 }

/-- A scan of a text from its start. After a second byte order mark, the first character of each line counts as one, as
far as the first piece of the text goes. -/
def ofSource (source : Source) : Scan :=
  { cursor := { rest := source.chars, severed := source.severed }
    bound := source.chars.length + 8
    marked := if source.chars.head? = some byteOrderMark then source.opening else 0 }

end Scan

end Stopwatch.Yaml
