import Stopwatch.Host.Call

/-!
Conditions made of words, as `test` and `[` take them: comparisons of texts and numbers, questions about files, and
these joined by operators.
-/

namespace Stopwatch.Host.Condition

/-- What a word means in a condition. -/
inductive Role where
  | unary
  | binary
  | not
  | and
  | or
  | openParen
  | closeParen
  deriving DecidableEq, Repr

/-- What a word is where it stands. -/
inductive Token where
  | ending
  | operand
  | operator (role : Role) (text : Bytes)
  deriving DecidableEq, Repr

/-- The operators. -/
def role? (s : Bytes) : Option Role :=
  let among (words : List String) : Bool := words.any fun w => utf8 w == s
  if among ["-r", "-w", "-x", "-e", "-f", "-d", "-c", "-b", "-p", "-u", "-g", "-k", "-s", "-t", "-z", "-n", "-h", "-O",
      "-G", "-L", "-S"] then some .unary
  else if among ["=", "!=", "<", ">", "-eq", "-ne", "-ge", "-gt", "-le", "-lt", "-nt", "-ot", "-ef"] then some .binary
  else if among ["!"] then some .not
  else if among ["-a"] then some .and
  else if among ["-o"] then some .or
  else if among ["("] then some .openParen
  else if among [")"] then some .closeParen
  else none

/-- The first of some words as a token. An operator in front of nothing, or of an operator between two words, is a word
itself. -/
def token (words : List Bytes) : Token :=
  match words with
  | [] => .ending
  | word :: rest =>
    match role? word with
    | none => .operand
    | some .unary =>
      let isOperand : Bool := match rest with
        | [] => true
        | [_] => false
        | next :: _ => role? next = some .binary
      if isOperand then .operand else .operator .unary word
    | some .openParen => if rest.isEmpty then .operand else .operator .openParen word
    | some role => .operator role word

/-- A result with the words from the last one that was used on; an error is its text. -/
abbrev Outcome := Except Bytes (Bool × List Bytes)

/-- The complaint about a word. -/
def refuse {α : Type} (word : Bytes) (text : String) : Except Bytes α :=
  .error (if word.isEmpty then utf8 text else word ++ utf8 ": " ++ utf8 text)

/-- A number of a comparison. -/
def number (s : Bytes) : Except Bytes Int64 :=
  match Leading.whole? (some 10) false s with
  | some n => .ok n
  | none => .error (utf8 "Illegal number: " ++ s)

/-- The answer to a question about one word. -/
def unary (c : Call) (op word : Bytes) : Except Bytes Bool :=
  let is (s : String) : Bool := op == utf8 s
  let node := (c.find word).toOption
  if is "-z" then .ok word.isEmpty
  else if is "-n" then .ok (!word.isEmpty)
  else if is "-t" then (number word).map fun _ => false
  else
    .ok (node.any fun node =>
      match node with
      | .directory => is "-e" || is "-d" || is "-r" || is "-w" || is "-x" || is "-s" || is "-O" || is "-G"
      | .file s x =>
        is "-e" || is "-f" || is "-r" || is "-w" || (is "-x" && x) || (is "-s" && !s.isEmpty) || is "-O" || is "-G"
      | .tool _ => is "-e" || is "-f" || is "-r" || is "-w" || is "-x" || is "-s" || is "-O" || is "-G"
      | _ => is "-e" || is "-c" || is "-r" || is "-w" || is "-O" || is "-G")

/-- The answer to a comparison. -/
def binary (c : Call) (a op b : Bytes) : Except Bytes Bool :=
  let is (s : String) : Bool := op == utf8 s
  let compare (f : Int64 → Int64 → Bool) : Except Bytes Bool := do
    let x ← number a
    let y ← number b
    .ok (f x y)
  if is "=" then .ok (a == b)
  else if is "!=" then .ok (a != b)
  else if is "<" then .ok (decide (a < b))
  else if is ">" then .ok (decide (b < a))
  else if is "-eq" then compare fun x y => x = y
  else if is "-ne" then compare fun x y => x ≠ y
  else if is "-ge" then compare fun x y => y ≤ x
  else if is "-gt" then compare fun x y => y < x
  else if is "-le" then compare fun x y => x ≤ y
  else if is "-lt" then compare fun x y => x < y
  else if is "-ef" then .ok ((c.find a).toOption.isSome && c.path a == c.path b)
  else .ok false

mutual

/-- Conditions of which one has to hold. -/
def either (c : Call) : Nat → Token → List Bytes → Bool → Outcome
  | 0, _, words, held => .ok (held, words)
  | fuel + 1, t, words, held => do
    let (value, words) ← both c fuel t words true
    match token words.tail with
    | .operator .or _ => either c fuel (token (words.drop 2)) (words.drop 2) (held || value)
    | _ => .ok (held || value, words)

/-- Conditions that all have to hold. -/
def both (c : Call) : Nat → Token → List Bytes → Bool → Outcome
  | 0, _, words, held => .ok (held, words)
  | fuel + 1, t, words, held => do
    let (value, words) ← negated c fuel t words
    match token words.tail with
    | .operator .and _ => both c fuel (token (words.drop 2)) (words.drop 2) (held && value)
    | _ => .ok (held && value, words)

def negated (c : Call) : Nat → Token → List Bytes → Outcome
  | 0, _, words => .ok (false, words)
  | fuel + 1, t, words =>
    match t with
    | .operator .not _ => do
      let next := token words.tail
      let (value, words) ← negated c fuel next (if next = .ending then words else words.tail)
      .ok (!value, words)
    | t => primary c fuel t words

/-- A single condition. -/
def primary (c : Call) : Nat → Token → List Bytes → Outcome
  | 0, _, words => .ok (false, words)
  | fuel + 1, t, words =>
    let word := words.head?.getD []
    match t with
    | .ending => .ok (false, words)
    | .operator .openParen _ =>
      match token words.tail with
      | .operator .closeParen _ => .ok (false, words.tail)
      | next => do
        let (value, words) ← either c fuel next words.tail false
        match token words.tail with
        | .operator .closeParen _ => .ok (value, words.tail)
        | _ => refuse [] "closing paren expected"
    | .operator .unary op =>
      match words.tail with
      | [] => refuse op "argument expected"
      | operand :: _ => (unary c op operand).map fun v => (v, words.tail)
    | _ =>
      match words.tail with
      | op :: rest =>
        if role? op = some .binary then
          match rest with
          | [] => refuse op "argument expected"
          | b :: _ => (binary c word op b).map fun v => (v, rest)
        else .ok (!word.isEmpty, words)
      | [] => .ok (!word.isEmpty, words)

end

/-- Whether the words of a condition hold. -/
def holds (c : Call) : Nat → List Bytes → Except Bytes Bool
  | 0, _ => .ok false
  | fuel + 1, words =>
    let evaluate (t : Token) (words : List Bytes) : Except Bytes Bool := do
      let (value, left) ← either c (4 * words.length + 8) t words false
      match left with
      | word :: _ :: _ => refuse word "unexpected operator"
      | _ => .ok value
    let isBinary : Bool := match words with
      | [_, op, _] => role? op = some .binary
      | _ => false
    if words.isEmpty then .ok false
    else if isBinary then evaluate .operand words
    else if words.length = 3 || words.length = 4 then
      if words.head? = some (utf8 "(") && words.getLast? = some (utf8 ")") then
        let inner := words.tail.dropLast
        evaluate (token inner) inner
      else if words.head? = some (utf8 "!") then (holds c fuel words.tail).map not
      else evaluate (token words) words
    else evaluate (token words) words

/-- Whether the words of `test` hold, or those of a bracket, which wants its partner. -/
def test (name : Bytes) (c : Call) : Except Bytes Bool :=
  if name == utf8 "[" then
    if c.args.getLast?.any fun w => w == utf8 "]" then holds c (c.args.length + 1) c.args.dropLast
    else .error (utf8 "missing ]")
  else holds c (c.args.length + 1) c.args

end Stopwatch.Host.Condition
