import Stopwatch.Host.Call
import Stopwatch.Host.Printf
import Stopwatch.Host.Regex.Parse

/-!
Programs that calculate: sequences of numbers, expressions, and factors.
-/

namespace Stopwatch.Host

namespace Sequence

/-- A decimal number: its digits as a whole number, and how many of them stand behind the point. -/
structure Decimal where
  digits : Int
  places : Nat
  /-- The octets in front of the point. -/
  front : Nat

/-- Reads a decimal number, with an exponent or in base sixteen. -/
def decimal? (s : Bytes) : Option Decimal :=
  let s := if s.head? = some Ascii.plus then s.tail else s
  let (negative, body) := if s.head? = some Ascii.minus then (true, s.tail) else (false, s)
  let sign (n : Nat) : Int := if negative then -(n : Int) else n
  let read (digits : Bytes) : Nat := digits.foldl (fun n d => n * 10 + (d.toNat - 48)) 0
  if Bytes.startsWith (utf8 "0x") body || Bytes.startsWith (utf8 "0X") body then
    (Integer.magnitude 16 (body.drop 2)).toOption.map fun n =>
      { digits := sign n, places := 0, front := (Integer.ofInt (sign n)).length }
  else
    let whole := body.takeWhile Ascii.isDigit
    let rest := body.drop whole.length
    let (part, rest) := match rest with
      | Ascii.dot :: more =>
        let part := more.takeWhile Ascii.isDigit
        (part, more.drop part.length)
      | rest => ([], rest)
    if whole.isEmpty && part.isEmpty then none
    else
      let n := read (whole ++ part)
      let front := max 1 whole.length + (if negative then 1 else 0)
      match rest with
      | [] => some { digits := sign n, places := part.length, front }
      | e :: more =>
        if e == 0x65 || e == 0x45 then
          match Leading.whole? (some 10) false more with
          | none => none
          | some x =>
            let power := x.toInt
            if 400 < power.natAbs then none
            else if (part.length : Int) ≤ power then
              let n := n * Nat.pow 10 (power.toNat - part.length)
              some { digits := sign n, places := 0, front := (Integer.ofInt (sign n)).length }
            else some { digits := sign n, places := (part.length - power).toNat, front }
        else none

/-- The digits of a number with so many places. -/
def Decimal.scaled (d : Decimal) (places : Nat) : Int := d.digits * Nat.pow 10 (places - d.places)

/-- A number of so many places as a text. -/
def textOf (places : Nat) (n : Int) : Bytes :=
  let digits := Integer.ofNat n.natAbs
  let digits := List.replicate (places + 1 - digits.length) Ascii.zero ++ digits
  let whole := digits.take (digits.length - places)
  (if n < 0 then [Ascii.minus] else []) ++ whole
    ++ (if places = 0 then [] else Ascii.dot :: digits.drop (digits.length - places))

/-- A text with zeros behind its sign up to a width. -/
def widened (width : Nat) (s : Bytes) : Bytes :=
  match s with
  | Ascii.minus :: rest => Ascii.minus :: (List.replicate (width - s.length) Ascii.zero ++ rest)
  | s => List.replicate (width - s.length) Ascii.zero ++ s

/-- The letters of the places for numbers in a format; none where it ends too early. -/
def directives : Nat → Bytes → List (Option UInt8)
  | 0, _ => []
  | fuel + 1, s =>
    match s with
    | [] => []
    | Ascii.percent :: Ascii.percent :: rest => directives fuel rest
    | Ascii.percent :: rest =>
      let rest := rest.dropWhile fun b => (utf8 "-+#0 '").contains b
      let rest := rest.dropWhile Ascii.isDigit
      let rest : Bytes := match rest with
        | Ascii.dot :: more => more.dropWhile Ascii.isDigit
        | rest => rest
      let rest : Bytes := if rest.head? == some 0x4c then rest.tail else rest
      rest.head? :: directives fuel rest.tail
    | _ :: rest => directives fuel rest

/-- What is wrong with a format: it must have one place for a number. -/
def formatTrouble (format : Bytes) : Option Bytes :=
  let text (reason : Bytes) : Bytes := utf8 "format " ++ quoted format ++ utf8 " " ++ reason
  match directives (format.length + 1) format with
  | [] => some (text (utf8 "has no % directive"))
  | none :: _ => some (text (utf8 "ends in %"))
  | some b :: rest =>
    if !(utf8 "aAeEfFgG").contains b then some (text (utf8 "has unknown %" ++ [b] ++ utf8 " directive"))
    else if rest.isEmpty then none
    else some (text (utf8 "has too many % directives"))

/-- The options in front of numbers; a minus before a digit or a point starts a number. -/
def splitArgs (args : List Bytes) : List Bytes × List Bytes :=
  let isNumber (a : Bytes) : Bool := match a with
    | Ascii.minus :: b :: _ => Ascii.isDigit b || b == Ascii.dot
    | _ => false
  let front := args.takeWhile fun a => !isNumber a
  (front, args.drop front.length)

def options : Options :=
  { flags := "w", valued := "sf", long := [("equal-width", 'w'), ("separator", 's'), ("format", 'f')] }

def tool (c : Call) : Effect :=
  let (front, numbers) := splitArgs c.args
  ({ c with args := if numbers.isEmpty then front else front ++ utf8 "--" :: numbers } : Call).withOptions "seq" 1 options
    fun g =>
    let words := g.words.filter fun w => w != utf8 "--"
    match words.find? fun w => (decimal? w).isNone with
    | some w => .misuse "seq" 1 (utf8 "invalid floating point argument: " ++ quoted w)
    | none =>
      let values := words.filterMap decimal?
      let one : Decimal := { digits := 1, places := 0, front := 1 }
      let run (first step last : Decimal) : Effect :=
        if step.digits = 0 then .misuse "seq" 1 (utf8 "invalid Zero increment value: " ++ quoted ((words[1]?).getD []))
        else
          match (g.value? 'f').bind formatTrouble with
          | some text => .fail 1 (utf8 "seq: " ++ text)
          | none =>
            let places := max first.places step.places
            let all := max places last.places
            let (a, d, z) := (first.scaled all, step.scaled all, last.scaled all)
            let count : Nat := if 0 < d then (if a ≤ z then ((z - a) / d + 1).toNat else 0)
              else (if z ≤ a then ((a - z) / (-d) + 1).toNat else 0)
            let width := if g.has 'w' then max first.front last.front + (if places = 0 then 0 else places + 1) else 0
            let texts := (List.range count).map fun (i : Nat) =>
              let text := textOf places (first.scaled places + step.scaled places * i)
              match g.value? 'f' with
              | some format => (Printf.print format [text]).text
              | none => widened width text
            let separator := (g.value? 's').getD [Ascii.newline]
            .print (if texts.isEmpty then [] else Bytes.join separator texts ++ [Ascii.newline])
      match values with
      | [] => .misuse "seq" 1 (utf8 "missing operand")
      | [last] => run one one last
      | [first, last] => run first one last
      | [first, step, last] => run first step last
      | _ => .misuse "seq" 1 (utf8 "extra operand " ++ quoted ((words[3]?).getD []))

end Sequence

namespace Expr

/-- The words to come, and the last one that was taken. -/
structure Words where
  rest : List Bytes
  last : Bytes := []

/-- A whole number that a word stands for. -/
def integer? (s : Bytes) : Option Int :=
  let (negative, digits) := if s.head? = some Ascii.minus then (true, s.tail) else (false, s)
  if digits.isEmpty || !digits.all Ascii.isDigit then none
  else
    let n : Nat := digits.foldl (fun n d => n * 10 + (d.toNat - 48)) 0
    some (if negative then -(n : Int) else n)

/-- Whether a value counts as false. -/
def isNull (s : Bytes) : Bool :=
  let digits := if s.head? = some Ascii.minus then s.tail else s
  s.isEmpty || (!digits.isEmpty && digits.all (· == Ascii.zero))

def truth (b : Bool) : Bytes := utf8 (if b then "1" else "0")

/-- The operators of each level, the loosest first. -/
def operators : Nat → List String
  | 0 => ["|"]
  | 1 => ["&"]
  | 2 => ["<", "<=", "=", "==", "!=", ">=", ">"]
  | 3 => ["+", "-"]
  | 4 => ["*", "/", "%"]
  | 5 => [":"]
  | _ => []

/-- The match of a pattern at the start of a text: its first group, or its length. -/
def matching (text pattern : Bytes) : Except Bytes Bytes :=
  match Regex.parse {} pattern with
  | .error trouble => .error (utf8 trouble.message)
  | .ok r =>
    let grouped := 0 < r.groupCount
    match r.ends { before := [], rest := text } with
    | [] => .ok (if grouped then [] else utf8 "0")
    | e :: _ =>
      if grouped then .ok ((e.groups.lookup 1).getD []) else .ok (Integer.ofNat (text.length - e.left))

/-- The value of an operator between two values. -/
def apply (op : Bytes) (a b : Bytes) : Except Bytes Bytes :=
  let is (s : String) : Bool := op == utf8 s
  if is "|" then .ok (if !isNull a then a else if isNull b then utf8 "0" else b)
  else if is "&" then .ok (if isNull a || isNull b then utf8 "0" else a)
  else if is ":" then matching a b
  else if is "+" || is "-" || is "*" || is "/" || is "%" then
    match integer? a, integer? b with
    | some x, some y =>
      if is "+" then .ok (Integer.ofInt (x + y))
      else if is "-" then .ok (Integer.ofInt (x - y))
      else if is "*" then .ok (Integer.ofInt (x * y))
      else if y = 0 then .error (utf8 "division by zero")
      else if is "/" then .ok (Integer.ofInt (x.tdiv y))
      else .ok (Integer.ofInt (x.tmod y))
    | _, _ => .error (utf8 "non-integer argument")
  else
    let order := match integer? a, integer? b with
      | some x, some y => compare x y
      | _, _ => if a < b then .lt else if b < a then .gt else .eq
    .ok (truth (if is "<" then order = .lt else if is "<=" then order ≠ .gt else if is "=" || is "==" then order = .eq
      else if is "!=" then order ≠ .eq else if is ">=" then order ≠ .lt else order = .gt))

/-- The value of a word that works on those behind it. -/
def function? (name : Bytes) : Option (Nat × (List Bytes → Except Bytes Bytes)) :=
  let is (s : String) : Bool := name == utf8 s
  let arg (l : List Bytes) (i : Nat) : Bytes := (l[i]?).getD []
  if is "length" then some (1, fun l => .ok (Integer.ofNat (arg l 0).length))
  else if is "match" then some (2, fun l => matching (arg l 0) (arg l 1))
  else if is "index" then
    some (2, fun l =>
      .ok (Integer.ofNat (((arg l 0).findIdx? fun b => (arg l 1).contains b).elim 0 (· + 1))))
  else if is "substr" then
    some (3, fun l =>
      match integer? (arg l 1), integer? (arg l 2) with
      | some start, some size =>
        if start ≤ 0 || size ≤ 0 then .ok [] else .ok (((arg l 0).drop (start.toNat - 1)).take size.toNat)
      | _, _ => .ok [])
  else none

def missing (w : Words) : Bytes := utf8 "syntax error: missing argument after " ++ quoted w.last

mutual

/-- The value of what follows, of a level of operators. Where `live` does not hold nothing is calculated. -/
def value : Nat → Nat → Bool → Words → Except Bytes (Bytes × Words)
  | 0, _, _, w => .error (missing w)
  | fuel + 1, level, live, w =>
    if level < 6 then do
      let (a, w) ← value fuel (level + 1) live w
      chain fuel level live a w
    else
      match w.rest with
      | [] => .error (missing w)
      | word :: rest =>
        let after : Words := { rest, last := word }
        if word == utf8 "+" then
          match rest with
          | [] => .error (missing after)
          | next :: rest => .ok (next, { rest, last := next })
        else if word == utf8 "(" then do
          let (a, w) ← value fuel 0 live after
          match w.rest with
          | [] => .error (utf8 "syntax error: expecting ')' after " ++ quoted w.last)
          | next :: rest =>
            if next == utf8 ")" then .ok (a, { rest, last := next })
            else .error (utf8 "syntax error: expecting ')' instead of " ++ quoted next)
        else if word == utf8 ")" then .error (utf8 "syntax error: unexpected ')'")
        else
          match function? word with
          | none => .ok (word, after)
          | some (count, f) => do
            let (args, w) ← arguments fuel count live after
            if live then return (← f args, w) else return ([], w)

/-- The operators of a level behind a value, from left to right. -/
def chain : Nat → Nat → Bool → Bytes → Words → Except Bytes (Bytes × Words)
  | 0, _, _, a, w => .ok (a, w)
  | fuel + 1, level, live, a, w =>
    match w.rest with
    | [] => .ok (a, w)
    | op :: rest =>
      if (operators level).any fun o => utf8 o == op then do
        let needed := if level = 0 then live && isNull a else if level = 1 then live && !isNull a else live
        let (b, w) ← value fuel (level + 1) needed { rest, last := op }
        let a ← if live then apply op a b else .ok a
        chain fuel level live a w
      else .ok (a, w)

/-- So many values one after the other. -/
def arguments : Nat → Nat → Bool → Words → Except Bytes (List Bytes × Words)
  | 0, _, _, w => .error (missing w)
  | _, 0, _, w => .ok ([], w)
  | fuel + 1, count + 1, live, w => do
    let (a, w) ← value fuel 6 live w
    let (more, w) ← arguments fuel count live w
    return (a :: more, w)

end

def tool (c : Call) : Effect :=
  let args := if c.args.head? = some (utf8 "--") then c.args.tail else c.args
  if args.isEmpty then .misuse "expr" 2 (utf8 "missing operand")
  else
    match value (16 * (args.length + 2)) 0 true { rest := args } with
    | .error text => .fail 2 (utf8 "expr: " ++ text)
    | .ok (v, w) =>
      match w.rest with
      | extra :: _ => .fail 2 (utf8 "expr: syntax error: unexpected argument " ++ quoted extra)
      | [] => { out := Data.ofBytes (v ++ [Ascii.newline]), status := if isNull v then 1 else 0 }

end Expr

/-- The prime factors of a number from a divisor on. -/
def factorsFrom : Nat → Nat → Nat → List Nat
  | 0, _, n => if 1 < n then [n] else []
  | fuel + 1, d, n =>
    if n < 2 then []
    else if n < d * d then [n]
    else if n % d = 0 then d :: factorsFrom fuel d (n / d)
    else factorsFrom fuel (d + 1) n

def factorTool (c : Call) : Effect :=
  let words := if c.args.isEmpty then (Bytes.split Ascii.space (c.input.bytes.map fun b =>
    if Leading.isSpace b then Ascii.space else b)).filter fun w => !w.isEmpty else c.args
  let lines := words.map fun w =>
    match naturalOf (if w.head? = some Ascii.plus then w.tail else w) with
    | some n =>
      (Integer.ofNat n ++ utf8 ":" ++ ((factorsFrom 1000000 2 n).flatMap fun f => [Ascii.space] ++ Integer.ofNat f)
        ++ [Ascii.newline], [])
    | none => ([], utf8 "factor: " ++ quoted w ++ utf8 " is not a valid positive integer\n")
  let err := lines.flatMap Prod.snd
  { out := Data.ofBytes (lines.flatMap Prod.fst), err, status := if err.isEmpty then 0 else 1
    reads := c.args.isEmpty }

end Stopwatch.Host
