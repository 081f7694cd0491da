import Stopwatch.Yaml.Encoding

/-!
Positions in a YAML text: the characters still to be read, with line and column. The five line breaks count as one kind
of character, and a carriage return with a line feed as one break.
-/

namespace Stopwatch.Yaml

/-- The rest of a text, and where it starts. A severed text cannot be looked at beyond its end. -/
structure Cursor where
  rest : List Char
  severed : Bool := false
  index : Nat := 0
  line : Nat := 0
  column : Nat := 0

def isSpaceOrTab (c : Char) : Bool := c = ' ' || c = '\t'

def isBreak (c : Char) : Bool := c = '\n' || c = '\r' || c = '\u0085' || c = '\u2028' || c = '\u2029'

namespace Cursor

/-- Whether the next characters, so many of them, can no longer be looked at. -/
def lacks (c : Cursor) (n : Nat) : Bool := c.severed && (c.rest.take n).length < n

/-- The next character. -/
def peek (c : Cursor) : Option Char := c.rest.head?

/-- The character after the next. -/
def peekSecond (c : Cursor) : Option Char := c.rest.tail.head?

/-- Whether the next character is the given one. -/
def isAt (c : Cursor) (x : Char) : Bool := c.peek = some x

def atBlank (c : Cursor) : Bool := c.peek.any isSpaceOrTab

def atBreak (c : Cursor) : Bool := c.peek.any isBreak

def atEnd (c : Cursor) : Bool := c.rest.isEmpty

/-- Whether a blank, a break or the end comes next. -/
def atGap (c : Cursor) : Bool := c.atEnd || c.atBlank || c.atBreak

/-- Past one character of a line. -/
def skip (c : Cursor) : Cursor :=
  { c with rest := c.rest.tail, index := c.index + 1, column := c.column + 1 }

/-- Past so many characters of a line. -/
def skipMany : Nat → Cursor → Cursor
  | 0, c => c
  | n + 1, c => skipMany n c.skip

/-- Past a line break, with what it stands for: a line feed, or one of the two separators. -/
def readBreak (c : Cursor) : List Char × Cursor :=
  match c.rest with
  | '\r' :: '\n' :: rest => (['\n'], { c with rest, index := c.index + 2, line := c.line + 1, column := 0 })
  | x :: rest =>
    ([if x = '\u2028' || x = '\u2029' then x else '\n'],
      { c with rest, index := c.index + 1, line := c.line + 1, column := 0 })
  | [] => ([], c)

/-- Past blanks and breaks. The number bounds them. -/
def skipGap : Nat → Cursor → Cursor
  | 0, c => c
  | fuel + 1, c =>
    if c.atBlank then skipGap fuel c.skip
    else if c.atBreak then skipGap fuel c.readBreak.2
    else c

/-- Whether a blank, a break or the end comes after the next character. -/
def gapAfter (c : Cursor) : Bool := c.skip.atGap

/-- Whether a line starts here with three dashes or three dots that stand alone. -/
def atDocumentMark (c : Cursor) (x : Char) : Bool :=
  c.column = 0 && c.rest.take 3 = [x, x, x] && (skipMany 3 c).atGap

def atAnyDocumentMark (c : Cursor) : Bool := c.atDocumentMark '-' || c.atDocumentMark '.'

/-- Past the characters of the line that satisfy a condition. -/
def skipWhile (p : Char → Bool) (c : Cursor) : Cursor :=
  let n := (c.rest.takeWhile p).length
  { c with rest := c.rest.drop n, index := c.index + n, column := c.column + n }

/-- Past all characters up to the next break. -/
def skipToBreak (c : Cursor) : Cursor := c.skipWhile fun x => !isBreak x

/-- How far ahead of a comment the next one is looked for. -/
def commentReach : Nat := 512

/-- Past a comment, and past further comments that only blanks and lines without content part from it. The number
bounds the comments. -/
def skipComments : Nat → Cursor → Cursor
  | 0, c => c
  | fuel + 1, c =>
    let c := c.skipToBreak
    match c.rest with
    | x :: rest =>
      if x = '\n' || x = '\r' then
        let gap := rest.takeWhile fun y => isSpaceOrTab y || y = '\n' || y = '\r'
        if gap.length + 1 < commentReach && (rest.drop gap.length).head? = some '#' then
          skipComments fuel (skipGap (gap.length + 1) c)
        else c
      else c
    | [] => c

end Cursor

end Stopwatch.Yaml
