import Stopwatch.Host.Regex.Match
import Stopwatch.Text.OctetClass

/-!
Reading regular expressions in the basic and the extended form. In the basic form operators are written with a backslash;
in both forms backslashes also name word edges and classes.
-/

namespace Stopwatch.Host.Regex

/-- How a pattern is written. -/
structure Form where
  extended : Bool := false
  ignoresCase : Bool := false
  /-- Whether signs that stand where they mean nothing stand for themselves or for nothing. -/
  lenient : Bool := false
  deriving Repr

/-- What is wrong with a pattern. -/
inductive Trouble where
  | unmatchedBracket
  | unmatchedOpen
  | unmatchedClose
  | unmatchedBrace
  | badCount
  | badClass
  | badRange
  | badReference
  | noOperand
  | trailingBackslash
  | tooBig
  /-- A class stands outside of a set. -/
  | bareClass
  | invalid
  deriving DecidableEq, Repr

def Trouble.message : Trouble → String
  | .unmatchedBracket => "Unmatched [, [^, [:, [., or [="
  | .unmatchedOpen => "Unmatched ( or \\("
  | .unmatchedClose => "Unmatched ) or \\)"
  | .unmatchedBrace => "Unmatched \\\x7b"
  | .badCount => "Invalid content of \\\x7b\\\x7d"
  | .badClass => "Invalid character class name"
  | .badRange => "Invalid range end"
  | .badReference => "Invalid back reference"
  | .noOperand => "Invalid preceding regular expression"
  | .trailingBackslash => "Trailing backslash"
  | .bareClass => "character class syntax is [[:space:]], not [:space:]"
  | .tooBig => "Regular expression too big"
  | .invalid => "Invalid regular expression"

/-- A part of a pattern with what is left and the number of groups that were opened. -/
structure Reading where
  regex : Regex
  rest : Bytes
  groups : Nat

/-- Octets with their other cases. -/
def Form.folded (f : Form) (members : Bytes) : Bytes :=
  if f.ignoresCase then members ++ members.map Ascii.lower ++ members.map Ascii.upper else members

/-- The members of a set, from behind its opening and its sign; `]` counts as a member where `first` holds. -/
def setMembers : Nat → Bool → Bytes → Bytes → Except Trouble (Bytes × Bytes)
  | 0, _, _, _ => .error .unmatchedBracket
  | fuel + 1, first, acc, s =>
    match s with
    | [] => .error .unmatchedBracket
    | b :: rest =>
      if b == Ascii.closeBracket && !first then .ok (acc, rest)
      else if b == Ascii.openBracket && rest.head? = some Ascii.colon then
        match octetClass? rest with
        | some (test, after) => setMembers fuel false (allOctets.filter test ++ acc) after
        | none => .error (if Bytes.includes (utf8 ":]") rest then .badClass else .unmatchedBracket)
      else
        let single (s : Bytes) : Option (UInt8 × Bytes) := match s with
          | Ascii.openBracket :: mark :: x :: mark' :: Ascii.closeBracket :: rest =>
            if (mark == Ascii.dot || mark == Ascii.equals) && mark == mark' then some (x, rest)
            else some (Ascii.openBracket, mark :: x :: mark' :: Ascii.closeBracket :: rest)
          | x :: rest => some (x, rest)
          | [] => none
        match single s with
        | none => .error .unmatchedBracket
        | some (low, after) =>
          match after with
          | Ascii.minus :: next :: more =>
            if next == Ascii.closeBracket then setMembers fuel false (low :: acc) after
            else
              match single (next :: more) with
              | none => .error .unmatchedBracket
              | some (high, after) =>
                if high < low then .error .badRange
                else setMembers fuel false (allOctets.filter (fun x => low ≤ x && x ≤ high) ++ acc) after
          | _ => setMembers fuel false (low :: acc) after

/-- A set in brackets, from behind the opening one. -/
def bracketSet (f : Form) (s : Bytes) : Except Trouble (Regex × Bytes) := do
  let negated := s.head? = some Ascii.caret
  let (members, rest) ← setMembers (s.length + 1) true [] (if negated then s.tail else s)
  let members := f.folded members
  return (.octets (if negated then allOctets.filter fun b => !members.contains b else members), rest)

/-- The bounds of a repetition, from behind the opening brace. -/
def bounds (f : Form) (s : Bytes) : Except Trouble ((Nat × Option Nat) × Bytes) :=
  let number (s : Bytes) : Option Nat × Bytes :=
    let digits := s.takeWhile Ascii.isDigit
    (if digits.isEmpty then none else some (digits.foldl (fun n d => n * 10 + (d.toNat - 48)) 0), s.drop digits.length)
  let closing := if f.extended then [Ascii.closeBrace] else [Ascii.backslash, Ascii.closeBrace]
  let (least, rest) := number s
  let finish (least : Nat) (most : Option Nat) (rest : Bytes) : Except Trouble ((Nat × Option Nat) × Bytes) :=
    if Bytes.startsWith closing rest then
      if most.any fun m => m < least then .error .badCount
      else if 32767 < least || most.any fun m => 32767 < m then .error .tooBig
      else .ok ((least, most), rest.drop closing.length)
    else .error (if rest.isEmpty then .unmatchedBrace else .badCount)
  match rest with
  | Ascii.comma :: more =>
    let (most, rest) := number more
    finish (least.getD 0) most rest
  | rest =>
    match least with
    | some n => finish n (some n) rest
    | none => .error (if rest.isEmpty then .unmatchedBrace else .badCount)

/-- The repetition that stands at the start of a text, and what is left behind it. -/
def repetition? (f : Form) (s : Bytes) : Except Trouble (Option ((Nat × Option Nat) × Bytes)) :=
  let sign (b : UInt8) (rest : Bytes) : Except Trouble (Option ((Nat × Option Nat) × Bytes)) :=
    if b == Ascii.plus then .ok (some ((1, none), rest))
    else if b == Ascii.question then .ok (some ((0, some 1), rest))
    else if b == Ascii.openBrace then
      match bounds f rest with
      | .ok found => .ok (some found)
      | .error e =>
        let shaped := (rest.dropWhile fun x => Ascii.isDigit x || x == Ascii.comma).head? = some Ascii.closeBrace
        if f.extended && f.lenient && !(shaped && rest.head?.any Ascii.isDigit) then .ok none else .error e
    else .ok none
  match s with
  | Ascii.star :: rest => .ok (some ((0, none), rest))
  | Ascii.backslash :: b :: rest => if f.extended then .ok none else sign b rest
  | b :: rest => if f.extended then sign b rest else .ok none
  | [] => .ok none

/-- A part with all the repetitions behind it. -/
def repeated (f : Form) : Nat → Reading → Except Trouble Reading
  | 0, r => .ok r
  | fuel + 1, r => do
    match ← repetition? f r.rest with
    | none => return r
    | some ((least, most), rest) => repeated f fuel { r with regex := .times r.regex least most, rest }

/-- What an octet behind a backslash stands for, if it is no operator. -/
def escaped (f : Form) (b : UInt8) : Regex :=
  let word := allOctets.filter isWord
  let space := allOctets.filter fun b => b == Ascii.space || (0x09 ≤ b && b ≤ 0x0d)
  let without (members : Bytes) : Regex := .octets (allOctets.filter fun b => !members.contains b)
  if b == 0x77 then .octets word
  else if b == 0x57 then without word
  else if b == 0x73 then .octets space
  else if b == 0x53 then without space
  else if b == 0x62 then .wordEdge
  else if b == 0x42 then .noWordEdge
  else if b == Ascii.less then .wordStart
  else if b == Ascii.greater then .wordEnd
  else if b == Ascii.backquote then .lineStart
  else if b == Ascii.singleQuote then .lineEnd
  else if b == 0x6e then .octets [Ascii.newline]
  else .octets (f.folded [b])

/-- Whether a text starts with the sign of an alternative or of the end of a group. -/
def endsBranch (f : Form) (s : Bytes) : Bool :=
  match s with
  | [] => true
  | Ascii.backslash :: b :: _ => !f.extended && (b == Ascii.bar || b == Ascii.closeParen)
  | b :: _ => f.extended && (b == Ascii.bar || b == Ascii.closeParen)

mutual

/-- Alternatives up to the end of the text or of the group. -/
def alternatives (f : Form) : Nat → Nat → Nat → Bytes → Except Trouble Reading
  | 0, _, groups, s => .ok { regex := .empty, rest := s, groups }
  | fuel + 1, depth, groups, s => do
    let first ← branch f fuel depth groups true .empty s
    let sign : Bytes := if f.extended then [Ascii.bar] else [Ascii.backslash, Ascii.bar]
    if Bytes.startsWith sign first.rest then
      let more ← alternatives f fuel depth first.groups (first.rest.drop sign.length)
      return { more with regex := .alt first.regex more.regex }
    else return first

/-- Parts one after the other, onto those before; `start` holds where nothing was read yet. -/
def branch (f : Form) : Nat → Nat → Nat → Bool → Regex → Bytes → Except Trouble Reading
  | 0, _, groups, _, acc, s => .ok { regex := acc, rest := s, groups }
  | fuel + 1, depth, groups, start, acc, s => do
    if endsBranch f s && (depth ≠ 0 || s.isEmpty || !Bytes.startsWith
        (if f.extended then [Ascii.closeParen] else [Ascii.backslash, Ascii.closeParen]) s) then
      return { regex := acc, rest := s, groups }
    else
      let part ← atom f fuel depth groups start s
      let anchor : Bool := match part.regex with
        | .lineStart => !f.extended
        | _ => false
      let part ← if anchor then pure part else repeated f fuel part
      let joined := match acc with
        | .empty => part.regex
        | acc => .seq acc part.regex
      branch f fuel depth part.groups anchor joined part.rest

/-- One part of a branch without its repetitions. -/
def atom (f : Form) : Nat → Nat → Nat → Bool → Bytes → Except Trouble Reading
  | 0, _, groups, _, s => .ok { regex := .empty, rest := s, groups }
  | fuel + 1, depth, groups, start, s =>
    let give (regex : Regex) (rest : Bytes) : Except Trouble Reading := .ok { regex, rest, groups }
    let enclosed (rest : Bytes) : Except Trouble Reading := do
      let number := groups + 1
      let inner ← alternatives f fuel (depth + 1) number rest
      let closing : Bytes := if f.extended then [Ascii.closeParen] else [Ascii.backslash, Ascii.closeParen]
      if Bytes.startsWith closing inner.rest then
        return { inner with regex := .group number inner.regex, rest := inner.rest.drop closing.length }
      else .error .unmatchedOpen
    match s with
    | [] => give .empty []
    | b :: rest =>
      if b == Ascii.dot then give .any rest
      else if b == Ascii.openBracket && rest.isEmpty then .error .invalid
      else if b == Ascii.openBracket && f.lenient && rest.head? = some Ascii.colon
          && (rest.tail.takeWhile (· != Ascii.closeBracket)).getLast? = some Ascii.colon then .error .bareClass
      else if b == Ascii.openBracket then do
        let (set, rest) ← bracketSet f rest
        return { regex := set, rest, groups }
      else if b == Ascii.backslash then
        match rest with
        | [] => .error .trailingBackslash
        | c :: rest =>
          if !f.extended && c == Ascii.openParen then enclosed rest
          else if !f.extended && c == Ascii.closeParen then .error .unmatchedClose
          else if !f.extended && c == Ascii.openBrace then
            if start && !f.lenient then .error .noOperand else give (.octets [c]) rest
          else if Ascii.isDigit c && c != Ascii.zero then
            if groups < c.toNat - 48 then .error .badReference else give (.again (c.toNat - 48)) rest
          else give (escaped f c) rest
      else if f.extended then
        if b == Ascii.openParen then enclosed rest
        else if b == Ascii.closeParen then
          if depth = 0 && f.lenient then give (.octets [b]) rest else .error .unmatchedClose
        else if b == Ascii.caret then give .lineStart rest
        else if b == Ascii.dollar then give .lineEnd rest
        else if b == Ascii.star || b == Ascii.plus || b == Ascii.question then
          if f.lenient then give .empty rest else .error .noOperand
        else if b == Ascii.openBrace && start then
          if !f.lenient then .error .noOperand
          else
            match bounds f rest with
            | .ok (_, rest) => give .empty rest
            | .error _ => give (.octets [b]) rest
        else give (.octets (f.folded [b])) rest
      else if b == Ascii.caret && start then give .lineStart rest
      else if b == Ascii.dollar && endsBranch f rest then give .lineEnd rest
      else give (.octets (f.folded [b])) rest

end

/-- The regular expression that a text writes. -/
def parse (f : Form) (s : Bytes) : Except Trouble Regex := do
  let r ← alternatives f (2 * s.length + 4) 0 0 s
  if r.rest.isEmpty then return r.regex else .error .unmatchedClose

end Stopwatch.Host.Regex
