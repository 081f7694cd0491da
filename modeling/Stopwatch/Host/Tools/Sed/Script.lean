import Stopwatch.Host.Regex.Parse
import Stopwatch.Number.Leading

/-!
Scripts of the stream editor: commands with the lines that they are for.
-/

namespace Stopwatch.Host.Sed

/-- What chooses a line. -/
inductive Address where
  | line (n : Nat)
  | last
  /-- A pattern, or the one used last. -/
  | pattern (r : Option Regex)
  /-- Every so many lines from a first one on. -/
  | every (first step : Nat)

/-- Where a range of lines ends. -/
inductive RangeEnd where
  | address (a : Address)
  | after (n : Nat)
  | multiple (n : Nat)

/-- How the letters of a replacement are changed. -/
inductive CaseMark where
  | upper
  | lower
  | nextUpper
  | nextLower
  | plain

/-- A piece of a replacement. -/
inductive Piece where
  | text (s : Bytes)
  /-- The text of a group; zero is the whole match. -/
  | group (n : Nat)
  | mark (m : CaseMark)

structure Substitution where
  pattern : Option Regex
  replacement : List Piece
  global : Bool := false
  /-- The match from which on it counts. -/
  nth : Nat := 1
  prints : Bool := false
  file : Option Bytes := none

inductive Action where
  | openBlock
  | closeBlock
  | nothing
  | number
  | append (text : Bytes)
  | insert (text : Bytes)
  | change (text : Bytes)
  | label (name : Bytes)
  | jump (name : Bytes)
  /-- A jump if a substitution was made, or if none was. -/
  | jumpIf (made : Bool) (name : Bytes)
  | delete
  | deleteFirst
  | print
  | printFirst
  | next
  | nextAppend
  | getHeld
  | getHeldAppend
  | keep
  | keepAppend
  | exchange
  | quit (status : Nat) (prints : Bool)
  | list (width : Option Nat)
  | substitute (s : Substitution)
  | translate (table : List (UInt8 × UInt8))
  | clear
  | fileName
  | readFile (path : Bytes)
  | readLine (path : Bytes)
  | write (path : Bytes)
  | writeFirst (path : Bytes)

structure Command where
  first : Option Address := none
  second : Option RangeEnd := none
  negated : Bool := false
  action : Action

/-- What is wrong with a script, and how much of it was left to read; none if that does not matter. -/
structure ScriptError where
  left : Option Nat
  text : Bytes

def fail {α : Type} (rest : Bytes) (text : String) : Except ScriptError α :=
  .error { left := some rest.length, text := utf8 text }

def skipBlanks (s : Bytes) : Bytes := s.dropWhile Leading.isSpace

/-- Blanks within a line. -/
def skipSpaces (s : Bytes) : Bytes := s.dropWhile fun b => Leading.isSpace b && b != Ascii.newline

/-- The octet that an escape stands for, from behind its backslash. -/
def octetEscape? (s : Bytes) : Option (UInt8 × Bytes) :=
  let numeral (base most : Nat) (s : Bytes) : Option (UInt8 × Bytes) :=
    let digits := (s.take most).takeWhile fun b => (Ascii.digitValue? b).any fun d => d < base
    if digits.isEmpty then none
    else some ((digits.foldl (fun n b => n * base + (Ascii.digitValue? b).getD 0) 0).toUInt8, s.drop digits.length)
  match s with
  | 0x61 :: rest => some (0x07, rest)
  | 0x66 :: rest => some (0x0c, rest)
  | 0x72 :: rest => some (0x0d, rest)
  | 0x74 :: rest => some (0x09, rest)
  | 0x76 :: rest => some (0x0b, rest)
  | 0x63 :: b :: rest => some (Ascii.upper b ^^^ 0x40, rest)
  | 0x64 :: rest => numeral 10 3 rest
  | 0x6f :: rest => numeral 8 3 rest
  | 0x78 :: rest => numeral 16 2 rest
  | _ => none

/-- The text of a set in brackets, from behind the opening one, onto what was read before. -/
def bracketText : Nat → Bool → Bytes → Bytes → Option (Bytes × Bytes)
  | 0, _, _, _ => none
  | fuel + 1, first, acc, s =>
    match s with
    | [] => none
    | Ascii.newline :: _ => none
    | Ascii.closeBracket :: rest =>
      if first then bracketText fuel false (Ascii.closeBracket :: acc) rest else some (Ascii.closeBracket :: acc, rest)
    | Ascii.openBracket :: mark :: rest =>
      if mark == Ascii.colon || mark == Ascii.dot || mark == Ascii.equals then
        let inner := rest.takeWhile (· != mark)
        match rest.drop inner.length with
        | m :: Ascii.closeBracket :: more =>
          bracketText fuel false ([Ascii.closeBracket, m] ++ inner.reverse ++ [mark, Ascii.openBracket] ++ acc) more
        | _ => bracketText fuel false (Ascii.openBracket :: acc) (mark :: rest)
      else bracketText fuel false (Ascii.openBracket :: acc) (mark :: rest)
    | Ascii.backslash :: 0x6e :: rest => bracketText fuel false (Ascii.newline :: acc) rest
    | Ascii.backslash :: rest =>
      match octetEscape? rest with
      | some (b, rest) => bracketText fuel false (b :: acc) rest
      | none => bracketText fuel false (Ascii.backslash :: acc) rest
    | b :: rest => bracketText fuel false (b :: acc) rest

/-- The text of a pattern up to its delimiter; none if the line ends first. -/
def patternText (delimiter : UInt8) : Nat → Bytes → Bytes → Option (Bytes × Bytes)
  | 0, _, _ => none
  | fuel + 1, acc, s =>
    match s with
    | [] => none
    | Ascii.newline :: _ => none
    | b :: rest =>
      if b == delimiter then some (acc.reverse, rest)
      else if b == Ascii.openBracket then
        let (acc, rest) := if rest.head? = some Ascii.caret then (Ascii.caret :: b :: acc, rest.tail) else (b :: acc, rest)
        match bracketText (rest.length + 1) true acc rest with
        | some (acc, rest) => patternText delimiter fuel acc rest
        | none => none
      else if b == Ascii.backslash then
        match rest with
        | [] => none
        | c :: more =>
          if c == delimiter then patternText delimiter fuel (c :: acc) more
          else if c == 0x6e then patternText delimiter fuel (Ascii.newline :: acc) more
          else
            match octetEscape? rest with
            | some (octet, more) =>
              let plain := Ascii.isLetter octet || Ascii.isDigit octet || octet < 0x21
              patternText delimiter fuel (octet :: (if plain then acc else Ascii.backslash :: acc)) more
            | none => patternText delimiter fuel (c :: b :: acc) more
      else patternText delimiter fuel (b :: acc) rest

/-- The pieces of a replacement up to its delimiter; none if the line ends first. -/
def replacement (delimiter : UInt8) : Nat → List Piece → Bytes → Option (List Piece × Bytes)
  | 0, _, _ => none
  | fuel + 1, acc, s =>
    let add (p : Piece) (rest : Bytes) : Option (List Piece × Bytes) := replacement delimiter fuel (p :: acc) rest
    match s with
    | [] => none
    | Ascii.newline :: _ => none
    | b :: rest =>
      if b == delimiter then some (acc.reverse, rest)
      else if b == Ascii.ampersand then add (.group 0) rest
      else if b == Ascii.backslash then
        match rest with
        | [] => none
        | c :: more =>
          if c == delimiter then add (.text [c]) more
          else if Ascii.isDigit c then add (.group (c.toNat - 48)) more
          else if c == 0x6e then add (.text [Ascii.newline]) more
          else if c == 0x55 then add (.mark .upper) more
          else if c == 0x4c then add (.mark .lower) more
          else if c == 0x75 then add (.mark .nextUpper) more
          else if c == 0x6c then add (.mark .nextLower) more
          else if c == 0x45 then add (.mark .plain) more
          else
            match octetEscape? rest with
            | some (octet, more) => add (.text [octet]) more
            | none => add (.text [c]) more
      else add (.text [b]) rest

/-- The pattern that a text writes; an empty one is the one used last. -/
def compile (extended ignoresCase : Bool) (text rest : Bytes) : Except ScriptError (Option Regex) :=
  if text.isEmpty then .ok none
  else
    match Regex.parse { extended, ignoresCase } text with
    | .ok r => .ok (some r)
    | .error trouble => fail rest trouble.message

/-- A number at the start of a text. -/
def number (s : Bytes) : Nat × Bytes :=
  let digits := s.takeWhile Ascii.isDigit
  (digits.foldl (fun n d => n * 10 + (d.toNat - 48)) 0, s.drop digits.length)

/-- The address at the start of a text, if there is one. -/
def address? (extended : Bool) (s : Bytes) : Except ScriptError (Option (Address × Bytes)) :=
  let pattern (delimiter : UInt8) (s : Bytes) : Except ScriptError (Option (Address × Bytes)) :=
    match patternText delimiter (s.length + 1) [] s with
    | none => fail (s.dropWhile (· != Ascii.newline)) "unterminated address regex"
    | some (text, rest) => do
      let flags := rest.takeWhile fun b => b == 0x49 || b == 0x4d
      let rest := rest.drop flags.length
      let r ← compile extended (flags.contains 0x49) text rest
      return some (.pattern r, rest)
  match s with
  | Ascii.slash :: rest => pattern Ascii.slash rest
  | Ascii.backslash :: b :: rest => pattern b rest
  | Ascii.dollar :: rest => .ok (some (.last, rest))
  | b :: _ =>
    if Ascii.isDigit b then
      let (n, rest) := number s
      match skipSpaces rest with
      | Ascii.tilde :: more =>
        let (step, rest) := number (skipSpaces more)
        .ok (some (.every n step, rest))
      | _ => .ok (some (.line n, rest))
    else .ok none
  | [] => .ok none

/-- The end of a range at the start of a text. -/
def rangeEnd? (extended : Bool) (s : Bytes) : Except ScriptError (Option (RangeEnd × Bytes)) :=
  match s with
  | Ascii.plus :: rest =>
    if rest.head?.any Ascii.isDigit then
      let (n, rest) := number rest
      .ok (some (.after n, rest))
    else fail rest "expected number"
  | Ascii.tilde :: rest =>
    if rest.head?.any Ascii.isDigit then
      let (n, rest) := number rest
      .ok (some (.multiple n, rest))
    else fail rest "expected number"
  | s => do
    match ← address? extended s with
    | some (a, rest) => return some (.address a, rest)
    | none => return none

/-- What follows a command: nothing more in its line, or the end of its block. -/
def commandEnd (s : Bytes) : Except ScriptError Bytes :=
  match skipSpaces s with
  | [] => .ok []
  | b :: rest =>
    if b == Ascii.newline || b == Ascii.semicolon then .ok rest
    else if b == Ascii.closeBrace || b == Ascii.hash then .ok (b :: rest)
    else fail rest "extra characters after command"

/-- The rest of a line as the name of a file. -/
def fileName (s : Bytes) : Except ScriptError (Bytes × Bytes) :=
  let s := skipSpaces s
  let name := s.takeWhile (· != Ascii.newline)
  if name.isEmpty then fail s "missing filename in r/R/w/W commands" else .ok (name, s.drop (name.length + 1))

/-- The flags of a substitution. -/
def flags (extended : Bool) (pattern : Bytes) :
    Nat → Bool → Option Nat → Substitution → Bytes → Except ScriptError (Substitution × Bytes)
  | 0, _, _, t, s => .ok (t, s)
  | fuel + 1, ignoresCase, nth, t, s =>
    let finish (t : Substitution) (rest : Bytes) : Except ScriptError (Substitution × Bytes) := do
      let r ← compile extended ignoresCase pattern rest
      let used := t.replacement.foldl (fun n p =>
        match p with
        | .group k => max n k
        | _ => n) 0
      if r.any fun r => r.groupCount < used then
        .error { left := some rest.length,
                 text := utf8 "invalid reference \\" ++ Integer.ofNat used ++ utf8 " on `s' command's RHS" }
      else return ({ t with pattern := r, nth := nth.getD 1 }, rest)
    match s with
    | [] => finish t []
    | b :: rest =>
      if b == Ascii.newline || b == Ascii.semicolon then finish t rest
      else if b == Ascii.closeBrace || b == Ascii.hash then finish t s
      else if b == 0x67 then
        if t.global then fail rest "multiple `g' options to `s' command"
        else flags extended pattern fuel ignoresCase nth { t with global := true } rest
      else if b == 0x70 then
        if t.prints then fail rest "multiple `p' options to `s' command"
        else flags extended pattern fuel ignoresCase nth { t with prints := true } rest
      else if b == 0x69 || b == 0x49 then flags extended pattern fuel true nth t rest
      else if b == 0x6d || b == 0x4d || b == 0x65 then flags extended pattern fuel ignoresCase nth t rest
      else if b == 0x77 then do
        let (name, rest) ← fileName rest
        finish { t with file := some name } rest
      else if Ascii.isDigit b then
        let (n, rest) := number s
        if nth.isSome then fail rest "multiple number options to `s' command"
        else if n = 0 then fail rest "number option to `s' command may not be zero"
        else flags extended pattern fuel ignoresCase (some n) t rest
      else if Leading.isSpace b then flags extended pattern fuel ignoresCase nth t rest
      else fail rest "unknown option to `s'"

def substitution (extended : Bool) (s : Bytes) : Except ScriptError (Substitution × Bytes) :=
  let unterminated (s : Bytes) : Except ScriptError (Substitution × Bytes) :=
    fail (s.dropWhile (· != Ascii.newline)) "unterminated `s' command"
  match s with
  | [] => unterminated []
  | delimiter :: rest =>
    match patternText delimiter (rest.length + 1) [] rest with
    | none => unterminated rest
    | some (pattern, rest) =>
      match replacement delimiter (rest.length + 1) [] rest with
      | none => unterminated (if rest.contains Ascii.backslash then [] else rest)
      | some (pieces, rest) =>
        flags extended pattern (rest.length + 1) false none { pattern := none, replacement := pieces } rest

/-- One side of a table of octets up to its delimiter. -/
def tableSide (delimiter : UInt8) : Nat → Bytes → Bytes → Option (Bytes × Bytes)
  | 0, _, _ => none
  | fuel + 1, acc, s =>
    match s with
    | [] => none
    | Ascii.newline :: _ => none
    | b :: rest =>
      if b == delimiter then some (acc.reverse, rest)
      else if b == Ascii.backslash then
        match rest with
        | [] => none
        | c :: more =>
          if c == delimiter || c == Ascii.backslash then tableSide delimiter fuel (c :: acc) more
          else if c == 0x6e then tableSide delimiter fuel (Ascii.newline :: acc) more
          else
            match octetEscape? rest with
            | some (octet, more) => tableSide delimiter fuel (octet :: acc) more
            | none => tableSide delimiter fuel (c :: acc) more
      else tableSide delimiter fuel (b :: acc) rest

def translation (s : Bytes) : Except ScriptError (List (UInt8 × UInt8) × Bytes) :=
  match s with
  | [] => fail [] "unterminated `y' command"
  | delimiter :: rest =>
    match tableSide delimiter (rest.length + 1) [] rest with
    | none => fail (rest.dropWhile (· != Ascii.newline)) "unterminated `y' command"
    | some (source, rest) =>
      match tableSide delimiter (rest.length + 1) [] rest with
      | none => fail (rest.dropWhile (· != Ascii.newline)) "unterminated `y' command"
      | some (target, rest) =>
        if source.length ≠ target.length then fail rest "strings for `y' command are different lengths"
        else do
          let rest ← commandEnd rest
          return (source.zip target, rest)

/-- A text up to the end of its last line; a backslash keeps the next octet, a newline included. -/
def lineText : Nat → Bytes → Bytes → Bytes × Bytes
  | 0, acc, s => (acc.reverse, s)
  | fuel + 1, acc, s =>
    match s with
    | [] => (acc.reverse, [])
    | Ascii.newline :: rest => (acc.reverse, rest)
    | Ascii.backslash :: rest =>
      match rest with
      | [] => (acc.reverse, [])
      | c :: more =>
        if c == 0x6e then lineText fuel (Ascii.newline :: acc) more
        else
          match octetEscape? rest with
          | some (octet, more) => lineText fuel (octet :: acc) more
          | none => lineText fuel (c :: acc) more
    | b :: rest => lineText fuel (b :: acc) rest

/-- The text of a command that adds lines. -/
def addedText (s : Bytes) : Except ScriptError (Bytes × Bytes) :=
  let s := skipSpaces s
  match s with
  | [] => fail [] "expected \\ after `a', `c' or `i'"
  | Ascii.backslash :: rest =>
    let start := match skipSpaces rest with
      | Ascii.newline :: more => more
      | _ => rest
    if start.isEmpty then .ok ([], [])
    else
      let (text, rest) := lineText (start.length + 1) [] start
      .ok (text ++ [Ascii.newline], rest)
  | s =>
    let (text, rest) := lineText (s.length + 1) [] s
    .ok (text ++ [Ascii.newline], rest)

/-- The name of a place to jump to. -/
def labelName (s : Bytes) : Bytes × Bytes :=
  let s := skipSpaces s
  let name := s.takeWhile fun b => !Leading.isSpace b && b != Ascii.semicolon && b != Ascii.closeBrace
  (name, s.drop name.length)

/-- A command by its letter, from behind it. -/
def action (extended : Bool) (letter : UInt8) (s : Bytes) : Except ScriptError (Action × Bytes) :=
  let plain (a : Action) : Except ScriptError (Action × Bytes) := do
    let rest ← commandEnd s
    return (a, rest)
  let added (make : Bytes → Action) : Except ScriptError (Action × Bytes) := do
    let (text, rest) ← addedText s
    return (make text, rest)
  let jump (make : Bytes → Action) : Except ScriptError (Action × Bytes) := do
    let (name, rest) := labelName s
    let rest ← commandEnd rest
    return (make name, rest)
  let filed (make : Bytes → Action) : Except ScriptError (Action × Bytes) := do
    let (name, rest) ← fileName s
    return (make name, rest)
  let counted (make : Option Nat → Action) : Except ScriptError (Action × Bytes) :=
    let s := skipSpaces s
    let (n, rest) := number s
    do
      let after ← commandEnd rest
      return (make (if rest.length = s.length then none else some n), after)
  match Char.ofNat letter.toNat with
  | '\x7b' => .ok (.openBlock, s)
  | '=' => plain .number
  | 'a' => added .append
  | 'i' => added .insert
  | 'c' => added .change
  | ':' =>
    let s' := skipSpaces s
    let name := s'.takeWhile fun b => !Leading.isSpace b && b != Ascii.semicolon
    if name.isEmpty then fail s' "\":\" lacks a label" else .ok (.label name, s'.drop name.length)
  | 'b' => jump .jump
  | 't' => jump (.jumpIf true)
  | 'T' => jump (.jumpIf false)
  | 'd' => plain .delete
  | 'D' => plain .deleteFirst
  | 'p' => plain .print
  | 'P' => plain .printFirst
  | 'n' => plain .next
  | 'N' => plain .nextAppend
  | 'g' => plain .getHeld
  | 'G' => plain .getHeldAppend
  | 'h' => plain .keep
  | 'H' => plain .keepAppend
  | 'x' => plain .exchange
  | 'z' => plain .clear
  | 'F' => plain .fileName
  | 'q' => counted fun n => .quit (n.getD 0) true
  | 'Q' => counted fun n => .quit (n.getD 0) false
  | 'l' => counted .list
  | 'r' => filed .readFile
  | 'R' => filed .readLine
  | 'w' => filed .write
  | 'W' => filed .writeFirst
  | 'v' => .ok (.nothing, (skipSpaces s).dropWhile fun b => b != Ascii.newline && b != Ascii.semicolon)
  | 's' => do
    let (t, rest) ← substitution extended s
    return (.substitute t, rest)
  | 'y' => do
    let (table, rest) ← translation s
    return (.translate table, rest)
  | _ => .error { left := some s.length, text := utf8 "unknown command: `" ++ [letter] ++ utf8 "'" }

/-- The commands of a script; the number counts the open blocks. -/
def commands (extended : Bool) : Nat → Nat → List Command → Bytes → Except ScriptError (List Command)
  | 0, _, acc, _ => .ok acc.reverse
  | fuel + 1, depth, acc, s => do
    match s.dropWhile fun b => Leading.isSpace b || b == Ascii.semicolon with
    | [] => if depth = 0 then return acc.reverse else .error { left := none, text := utf8 "unmatched `\x7b'" }
    | Ascii.hash :: rest => commands extended fuel depth acc (rest.dropWhile (· != Ascii.newline))
    | Ascii.closeBrace :: rest =>
      if depth = 0 then fail rest "unexpected `\x7d'"
      else
        let rest ← commandEnd rest
        commands extended fuel (depth - 1) ({ action := .closeBlock } :: acc) rest
    | s =>
      if s.head? = some Ascii.plus || s.head? = some Ascii.tilde then
        if s.tail.head?.any Ascii.isDigit then
          fail (number s.tail).2 "invalid usage of +N or ~N as first address"
      let (first, s) ← match ← address? extended s with
        | some (a, rest) => pure (some a, skipSpaces rest)
        | none => pure (none, s)
      let (second, s) ← match first, s with
        | some _, Ascii.comma :: rest =>
          match ← rangeEnd? extended (skipBlanks rest) with
          | some (e, rest) => pure (some e, skipSpaces rest)
          | none => fail ((skipBlanks rest).drop 1) "unexpected `,'"
        | _, s => pure (none, s)
      let (negated, s) ← match s with
        | Ascii.bang :: rest =>
          let rest := skipSpaces rest
          if rest.head? = some Ascii.bang then fail rest.tail "multiple `!'s" else pure (true, rest)
        | s => pure (false, s)
      match s with
      | [] => fail [] "missing command"
      | letter :: rest =>
        let zero : Bool := match first, second with
          | some (.line 0), some (.address (.pattern _)) => false
          | some (.line 0), _ => true
          | _, _ => false
        if zero then fail rest "invalid usage of line address 0"
        else if letter == Ascii.colon && first.isSome then fail rest ": doesn't want any addresses"
        else if letter == Ascii.closeBrace && first.isSome then
          .error { left := some rest.length, text := utf8 "\x7d doesn't want any addresses" }
        else
          let (a, rest) ← action extended letter rest
          let depth := if letter == Ascii.openBrace then depth + 1 else depth
          commands extended fuel depth ({ first, second, negated, action := a } :: acc) rest

end Stopwatch.Host.Sed
