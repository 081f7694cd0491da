import Stopwatch.Number.Leading

/-!
Arithmetic of the shell: 64-bit integers, variables, and the usual operators with their precedence. An operand that
cannot matter is read but not worked out.
-/

namespace Stopwatch.Host.Shell.Arithmetic

/-- Variables by name. -/
abbrev Variables := List (Bytes × Bytes)

/-- Why an expression has no value. -/
inductive Trouble where
  | noOperand
  | noParenthesis
  | noColon
  | leftOver
  | divisionByZero
  /-- A quotient that 64 bits cannot hold; the processor stops. -/
  | overflow
  /-- A variable whose value is not a number. -/
  | illegal (text : Bytes)
  deriving DecidableEq, Repr

def Trouble.message (expression : Bytes) : Trouble → Bytes
  | .illegal text => utf8 "Illegal number: " ++ text
  | trouble =>
    let reason := match trouble with
      | .noOperand => "expecting primary"
      | .noParenthesis => "expecting ')'"
      | .noColon => "expecting ':'"
      | .leftOver => "expecting EOF"
      | _ => "division by zero"
    utf8 "arithmetic expression: " ++ utf8 reason ++ utf8 ": \"" ++ expression ++ utf8 "\""

inductive Token where
  | number (n : Int64)
  | name (s : Bytes)
  | sign (s : String)
  /-- An octet that means nothing here. -/
  | stray
  deriving DecidableEq, Repr

/-- The signs, longer ones before those that they start with. -/
def signs : List String :=
  ["<<=", ">>=", "<<", ">>", "<=", ">=", "==", "!=", "&&", "||", "+=", "-=", "*=", "/=", "%=", "&=", "^=", "|=", "=",
    "<", ">", "!", "&", "|", "^", "+", "-", "*", "/", "%", "~", "?", ":", "(", ")"]

/-- The tokens of a text. -/
def tokens : Nat → Bytes → List Token
  | 0, _ => []
  | fuel + 1, s =>
    match s.dropWhile fun b => b == Ascii.space || b == Ascii.tab || b == Ascii.newline with
    | [] => []
    | b :: rest =>
      let s := b :: rest
      if Ascii.isDigit b then
        match Leading.integer? none s with
        | some (n, rest) => .number (Leading.clamp n).1 :: tokens fuel rest
        | none => [.stray]
      else if Ascii.isLetter b || b == Ascii.underscore then
        let name := s.takeWhile fun b => Ascii.isLetter b || Ascii.isDigit b || b == Ascii.underscore
        .name name :: tokens fuel (s.drop name.length)
      else
        match signs.find? fun sign => Bytes.startsWith (utf8 sign) s with
        | some sign => .sign sign :: tokens fuel (s.drop sign.length)
        | none => .stray :: tokens fuel rest

/-- What is still to be read, and the variables that were set, the latest first. -/
structure Work where
  rest : List Token
  known : Variables
  set : Variables := []

abbrev Working := StateT Work (Except Trouble)

def truth (b : Bool) : Int64 := if b then 1 else 0

/-- The value of a variable; one that is not set or blank counts as zero. -/
def valueOf (name : Bytes) : Working Int64 := do
  let w ← get
  match (w.set ++ w.known).lookup name with
  | none => pure 0
  | some text =>
    match Leading.whole? none true text with
    | some n => pure n
    | none => throw (.illegal text)

/-- Applies an operator. -/
def apply (op : String) (a b : Int64) : Except Trouble Int64 :=
  match op with
  | "|" => .ok (a ||| b)
  | "^" => .ok (a ^^^ b)
  | "&" => .ok (a &&& b)
  | "==" => .ok (truth (a = b))
  | "!=" => .ok (truth (a ≠ b))
  | "<=" => .ok (truth (a ≤ b))
  | ">=" => .ok (truth (b ≤ a))
  | "<" => .ok (truth (a < b))
  | ">" => .ok (truth (b < a))
  | "<<" => .ok (a <<< b)
  | ">>" => .ok (a >>> b)
  | "+" => .ok (a + b)
  | "-" => .ok (a - b)
  | "*" => .ok (a * b)
  | _ =>
    if b = 0 then .error .divisionByZero
    else if a = Int64.minValue && b = -1 then .error .overflow
    else .ok (if op = "/" then a / b else a % b)

/-- The operators between two operands by precedence, the loosest first. -/
def levels : List (List String) :=
  [["|"], ["^"], ["&"], ["==", "!="], ["<=", ">=", "<", ">"], ["<<", ">>"], ["+", "-"], ["*", "/", "%"]]

/-- The signs of assignments. -/
def assignments : List String := ["=", "<<=", ">>=", "+=", "-=", "*=", "/=", "%=", "&=", "^=", "|="]

/-- The sign that comes next. -/
def nextSign : Working String := do
  match (← get).rest with
  | .sign s :: _ => pure s
  | _ => pure ""

def advance : Working Unit := modify fun w => { w with rest := w.rest.tail }

mutual

/-- An assignment or a choice. -/
def expression : Nat → Bool → Working Int64
  | 0, _ => throw .noOperand
  | fuel + 1, counts => do
    match (← get).rest with
    | .name name :: .sign sign :: rest =>
      if assignments.contains sign then
        modify fun w => { w with rest }
        let v ← expression fuel counts
        if counts then
          let new ← if sign = "=" then pure v
            else do
              let old ← valueOf name
              liftM (apply (sign.dropEnd 1).toString old v)
          modify fun w => { w with set := (name, Integer.ofInt64 new) :: w.set }
          pure new
        else pure v
      else choice fuel counts
    | _ => choice fuel counts

/-- A value chosen by a condition. -/
def choice : Nat → Bool → Working Int64
  | 0, _ => throw .noOperand
  | fuel + 1, counts => do
    let c ← either fuel counts
    if (← nextSign) = "?" then
      advance
      let a ← expression fuel (counts && c ≠ 0)
      if (← nextSign) ≠ ":" then throw .noColon
      advance
      let b ← choice fuel (counts && c = 0)
      pure (if c ≠ 0 then a else b)
    else pure c

/-- Operands of which one has to hold. -/
def either : Nat → Bool → Working Int64
  | 0, _ => throw .noOperand
  | fuel + 1, counts => do
    let a ← both fuel counts
    if (← nextSign) = "||" then
      advance
      let b ← either fuel (counts && a = 0)
      pure (truth (a ≠ 0 || b ≠ 0))
    else pure a

/-- Operands that all have to hold. -/
def both : Nat → Bool → Working Int64
  | 0, _ => throw .noOperand
  | fuel + 1, counts => do
    let a ← binary fuel 0 counts
    if (← nextSign) = "&&" then
      advance
      let b ← both fuel (counts && a ≠ 0)
      pure (truth (a ≠ 0 && b ≠ 0))
    else pure a

/-- Operands of a level joined by its operators. -/
def binary : Nat → Nat → Bool → Working Int64
  | 0, _, _ => throw .noOperand
  | fuel + 1, level, counts =>
    if levels.length ≤ level then unary fuel counts
    else do
      let a ← binary fuel (level + 1) counts
      binaryRest fuel level counts a

def binaryRest : Nat → Nat → Bool → Int64 → Working Int64
  | 0, _, _, _ => throw .noOperand
  | fuel + 1, level, counts, a => do
    let sign ← nextSign
    if (levels[level]?.getD []).contains sign then
      advance
      let b ← binary fuel (level + 1) counts
      let v ← if counts then liftM (apply sign a b) else pure b
      binaryRest fuel level counts v
    else pure a

/-- A signed, negated or single operand. -/
def unary : Nat → Bool → Working Int64
  | 0, _ => throw .noOperand
  | fuel + 1, counts => do
    match (← get).rest with
    | .number n :: rest =>
      modify fun w => { w with rest }
      pure n
    | .name name :: rest =>
      modify fun w => { w with rest }
      if counts then valueOf name else pure 0
    | .sign sign :: rest =>
      modify fun w => { w with rest }
      match sign with
      | "-" => return -(← unary fuel counts)
      | "+" => unary fuel counts
      | "!" => return truth ((← unary fuel counts) = 0)
      | "~" => return -(← unary fuel counts) - 1
      | "(" =>
        let v ← expression fuel counts
        if (← nextSign) ≠ ")" then throw .noParenthesis
        advance
        pure v
      | _ => throw .noOperand
    | _ => throw .noOperand

end

/-- The value of an expression, with the variables that it set in order. -/
def evaluate (known : Variables) (s : Bytes) : Except Trouble (Int64 × Variables) := do
  let (v, w) ← (expression (16 * s.length + 64) true).run { rest := tokens (s.length + 1) s, known }
  if w.rest.isEmpty then .ok (v, w.set.reverse) else .error .leftOver

end Stopwatch.Host.Shell.Arithmetic
