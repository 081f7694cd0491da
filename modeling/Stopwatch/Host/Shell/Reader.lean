import Stopwatch.Host.Shell.Syntax

/-!
The text of a script on its way to commands: where reading stands, and the sign that comes next.
-/

namespace Stopwatch.Host.Shell

/-- The text still to be read, and the number of its first line. -/
structure Input where
  rest : Bytes
  line : Nat := 1
  /-- Lines of texts in place that were taken out behind the next newline. -/
  held : Nat := 0
  aliases : List (Bytes × Bytes) := []
  /-- Aliases that were replaced, each with the length of the text behind it. -/
  replaced : List (Bytes × Nat) := []

/-- A text that is not in the language. -/
structure SyntaxError where
  line : Nat
  text : Bytes

abbrev Reading (α : Type) := Except SyntaxError (α × Input)

namespace Input

def fail {α : Type} (i : Input) (text : String) : Except SyntaxError α := .error { line := i.line, text := utf8 text }

/-- Past one octet. -/
def skip (i : Input) : Input :=
  match i.rest with
  | [] => i
  | b :: rest => if b == Ascii.newline then { i with rest, line := i.line + 1 + i.held, held := 0 } else { i with rest }

/-- Past so many octets of one line. -/
def drop (n : Nat) (i : Input) : Input := { i with rest := i.rest.drop n }

def startsWith (i : Input) (s : String) : Bool := Bytes.startsWith (utf8 s) i.rest

end Input

def isNameStart (b : UInt8) : Bool := Ascii.isLetter b || b == Ascii.underscore

def isNameOctet (b : UInt8) : Bool := isNameStart b || Ascii.isDigit b

/-- Whether a text is a name that a variable can have. -/
def isName (s : Bytes) : Bool := s.head?.any isNameStart && s.all isNameOctet

/-- Whether an octet names a parameter that the shell keeps itself. -/
def isSpecial (b : UInt8) : Bool := (utf8 "?$#@*!-").contains b

/-- The octets that end a word outside of quotes. -/
def isMeta (b : UInt8) : Bool :=
  b == Ascii.space || b == Ascii.tab || b == Ascii.newline || b == Ascii.semicolon || b == Ascii.ampersand
    || b == Ascii.bar || b == Ascii.less || b == Ascii.greater || b == Ascii.openParen || b == Ascii.closeParen

/-- Past backslashes that join lines. -/
def joinLines : Nat → Input → Input
  | 0, i => i
  | fuel + 1, i =>
    match i.rest with
    | b :: c :: rest =>
      if b == Ascii.backslash && c == Ascii.newline then joinLines fuel { i with rest, line := i.line + 1 } else i
    | _ => i

/-- The bound on the steps of reading a script. -/
def readingBound : Nat := 100000000

def Input.joined (i : Input) : Input := joinLines readingBound i

/-- Past blanks, joined lines and a comment. -/
def skipBlanks : Nat → Input → Input
  | 0, i => i
  | fuel + 1, i =>
    let i := i.joined
    match i.rest with
    | b :: _ =>
      if b == Ascii.space || b == Ascii.tab then skipBlanks fuel i.skip
      else if b == Ascii.hash then { i with rest := i.rest.dropWhile (· != Ascii.newline) }
      else i
    | [] => i

def Input.blanks (i : Input) : Input := skipBlanks readingBound i

/-- Past blanks, comments and newlines. -/
def skipLines : Nat → Input → Input
  | 0, i => i
  | fuel + 1, i =>
    let i := i.blanks
    if i.rest.head? = some Ascii.newline then skipLines fuel i.skip else i

def Input.lines (i : Input) : Input := skipLines readingBound i

/-- The words that mean something where a command starts. -/
def keywords : List String :=
  ["if", "then", "else", "elif", "fi", "while", "until", "do", "done", "for", "in", "case", "esac", "\x7b", "\x7d", "!"]

/-- What comes next in a script. -/
inductive Sign where
  | ending
  | newline
  | semicolon
  | ampersand
  | and
  | or
  | bar
  | openParen
  | closeParen
  | endArm
  | redirection
  | word
  | keyword (text : String)
  deriving DecidableEq, Repr

namespace Sign

/-- The octets of a sign that is not a word. -/
def text : Sign → String
  | .newline => "\n"
  | .semicolon => ";"
  | .ampersand => "&"
  | .and => "&&"
  | .or => "||"
  | .bar => "|"
  | .openParen => "("
  | .closeParen => ")"
  | .endArm => ";;"
  | .keyword k => k
  | _ => ""

/-- A sign as messages name it. -/
def name : Sign → Bytes
  | .ending => utf8 "end of file"
  | .newline => utf8 "newline"
  | .redirection => utf8 "redirection"
  | .word => utf8 "word"
  | sign => utf8 "\"" ++ utf8 sign.text ++ utf8 "\""

/-- Whether a list of commands ends before a sign. -/
def endsList : Sign → Bool
  | .ending => true
  | .closeParen => true
  | .endArm => true
  | .keyword k => ["then", "else", "elif", "fi", "do", "done", "esac", "\x7d"].contains k
  | _ => false

end Sign

/-- The plain word that comes next, if nothing in it is quoted or replaced. -/
def Input.plainWord? (i : Input) : Option Bytes :=
  let word := i.rest.takeWhile fun b =>
    !isMeta b && b != Ascii.singleQuote && b != Ascii.doubleQuote && b != Ascii.dollar && b != Ascii.backquote
      && b != Ascii.backslash
  if !word.isEmpty && (i.rest.drop word.length).head?.all isMeta then some word else none

/-- The sign at which reading stands. -/
def Input.sign (i : Input) : Sign :=
  match i.rest with
  | [] => .ending
  | b :: rest =>
    let next := rest.head?.getD 0
    if b == Ascii.newline then .newline
    else if b == Ascii.semicolon then if next == b then .endArm else .semicolon
    else if b == Ascii.ampersand then if next == b then .and else .ampersand
    else if b == Ascii.bar then if next == b then .or else .bar
    else if b == Ascii.openParen then .openParen
    else if b == Ascii.closeParen then .closeParen
    else if b == Ascii.less || b == Ascii.greater then .redirection
    else if Ascii.isDigit b && (next == Ascii.less || next == Ascii.greater) then .redirection
    else
      match i.plainWord? with
      | none => .word
      | some word =>
        match keywords.find? fun k => utf8 k == word with
        | some k => .keyword k
        | none => .word

/-- Past a sign that is not a word. -/
def Input.past (i : Input) (sign : Sign) : Input :=
  match sign with
  | .newline => i.skip
  | sign => i.drop (utf8 sign.text).length

/-- The trouble of an unexpected sign; where `plain` holds keywords are words. -/
def Input.unexpectedAs {α : Type} (i : Input) (plain : Bool) (expected : Option String) : Except SyntaxError α :=
  let sign : Sign := match i.sign with
    | .keyword k => if plain then .word else .keyword k
    | sign => sign
  .error
    { line := (if sign = .newline then i.skip else i).line
      text := sign.name ++ utf8 " unexpected" ++ (match expected with
        | some e => utf8 " (expecting \"" ++ utf8 e ++ utf8 "\")"
        | none => []) }

/-- The trouble of an unexpected sign. -/
def Input.unexpected {α : Type} (i : Input) (expected : Option String) : Except SyntaxError α :=
  i.unexpectedAs false expected

/-- Past an expected keyword, and the newlines before it. -/
def Input.expect (i : Input) (k : String) : Except SyntaxError Input :=
  let i := i.lines
  if i.sign = .keyword k then .ok (i.drop (utf8 k).length) else i.unexpected (some k)

/-- Replaces an alias that comes next, as often as there is one. -/
def replaceAliases : Nat → Input → Input
  | 0, i => i
  | fuel + 1, i =>
    match i.plainWord? with
    | none => i
    | some word =>
      if keywords.any fun k => utf8 k == word then i
      else
        let rest := i.rest.drop word.length
        let inside := i.replaced.any fun (name, behind) => name == word && behind < i.rest.length
        match (if inside then none else i.aliases.lookup word) with
        | none => i
        | some value =>
          replaceAliases fuel
            { i with rest := value ++ rest, replaced := (word, rest.length) :: i.replaced }.blanks

/-- At the first word of a command. -/
def Input.command (i : Input) : Input := if i.aliases.isEmpty then i else replaceAliases 64 i

/-- The text of a command in backquotes in reverse, and what follows it. In quotes a backslash also hides a double
quote. -/
def backquoted (quoted : Bool) : Bytes → Bytes → Option (Bytes × Bytes)
  | [], _ => none
  | [b], acc => if b == Ascii.backquote then some (acc, []) else none
  | b :: c :: rest, acc =>
    if b == Ascii.backquote then some (acc, c :: rest)
    else if b == Ascii.backslash then
      if c == Ascii.newline then backquoted quoted rest acc
      else if c == Ascii.backquote || c == Ascii.backslash || c == Ascii.dollar || (quoted && c == Ascii.doubleQuote) then
        backquoted quoted rest (c :: acc)
      else backquoted quoted rest (c :: b :: acc)
    else backquoted quoted (c :: rest) (b :: acc)

/-- Where a word is read. -/
inductive Place where
  /-- Up to a blank or a sign. -/
  | plain
  /-- The same, with nothing replaced. -/
  | mark
  /-- Up to a double quote. -/
  | quotes
  /-- Up to a brace, outside of quotes. -/
  | braces
  /-- Up to a brace, inside quotes; quotes inside switch whether braces count. -/
  | quotedBraces
  /-- Up to two parentheses. -/
  | sum
  /-- To the end, as inside quotes. -/
  | text
  deriving DecidableEq

def Place.isQuoted : Place → Bool
  | .plain => false
  | .mark => false
  | .braces => false
  | _ => true

/-- The complaint about a text that ends too early. -/
def Place.unfinished : Place → Option String
  | .quotes => some "Unterminated quoted string"
  | .quotedBraces => some "Unterminated quoted string"
  | .braces => some "Missing '\x7d'"
  | .sum => some "Missing '))'"
  | _ => none

/-- Adds a literal octet to the parts read so far, the latest first. -/
def addOctet (b : UInt8) (quoted : Bool) : List Part → List Part
  | .literal s q :: rest => if q = quoted then .literal (b :: s) q :: rest else .literal [b] quoted :: .literal s q :: rest
  | parts => .literal [b] quoted :: parts

/-- The parts in the other order; literals are collected backwards. -/
def turnParts (parts : List Part) : Word :=
  (parts.map fun
    | .literal s q => .literal s.reverse q
    | p => p).reverse

/-- The octets that stay after a backslash in quotes. -/
def escapedIn (place : Place) (c : UInt8) : Bytes :=
  if c == Ascii.dollar || c == Ascii.backquote || c == Ascii.backslash then [c]
  else if c == Ascii.doubleQuote && place ≠ .text then [c]
  else if c == Ascii.closeBrace && place = .quotedBraces then [c]
  else [Ascii.backslash, c]

/-- The operator behind the name in braces: whether it takes a word, and the rest. None for an unknown one. -/
def braceOperator (s : Bytes) : Option (Option (Operator × Bool) × Bytes) :=
  let plain (b : UInt8) : Option Operator :=
    if b == Ascii.minus then some .fallback
    else if b == Ascii.plus then some .replace
    else if b == Ascii.question then some .insist
    else if b == Ascii.equals then some .assign
    else none
  match s with
  | [] => none
  | b :: rest =>
    if b == Ascii.closeBrace then some (none, rest)
    else if b == Ascii.hash || b == Ascii.percent then
      let operator := if b == Ascii.hash then Operator.dropStart else .dropEnd
      if rest.head? = some b then some (some (operator, true), rest.tail) else some (some (operator, false), rest)
    else if b == Ascii.colon then
      match rest with
      | c :: after => if c == Ascii.closeBrace then some (none, after) else (plain c).map fun o => (some (o, true), after)
      | [] => none
    else (plain b).map fun o => (some (o, false), rest)

/-- The name at the start of the text in braces and the rest, with whether its length is asked for. -/
def braceName (s : Bytes) : Option (Bool × Bytes × Bytes) :=
  let name (s : Bytes) : Bytes :=
    match s with
    | [] => []
    | b :: _ =>
      if isNameStart b then s.takeWhile isNameOctet
      else if Ascii.isDigit b then s.takeWhile Ascii.isDigit
      else []
  match s with
  | [] => none
  | b :: rest =>
    let plain := name s
    if !plain.isEmpty then some (false, plain, s.drop plain.length)
    else if b == Ascii.hash then
      let counted := name rest
      if !counted.isEmpty then
        if (rest.drop counted.length).head? = some Ascii.closeBrace then some (true, counted, rest.drop counted.length)
        else none
      else
        match rest with
        | c :: d :: _ =>
          if c != Ascii.closeBrace && d == Ascii.closeBrace then
            if isSpecial c then some (true, [c], rest.tail) else none
          else some (false, [b], rest)
        | _ => some (false, [b], rest)
    else if isSpecial b then some (false, [b], rest)
    else none

/-- The lines of a text in place up to its closing line, what comes behind, and the number of lines. With `joins` a
backslash at the end of a line takes the next line in. -/
def hereLines (closing : Bytes) (dropTabs joins : Bool) : Nat → Bool → Bytes → List Bytes → Nat → Bytes × Bytes × Nat
  | 0, _, s, acc, n => (acc.reverse.flatten, s, n)
  | fuel + 1, inside, s, acc, n =>
    if s.isEmpty then (acc.reverse.flatten, [], n)
    else
      let line := s.takeWhile (· != Ascii.newline)
      let rest := s.drop line.length
      let line := if dropTabs && !inside then line.dropWhile (· == Ascii.tab) else line
      if line == closing && !inside then (acc.reverse.flatten, rest.drop 1, n + 1)
      else
        let continued := joins && (line.reverse.takeWhile (· == Ascii.backslash)).length % 2 = 1
        hereLines closing dropTabs joins fuel continued (rest.drop 1) ((line ++ rest.take 1) :: acc) (n + 1)

end Stopwatch.Host.Shell
