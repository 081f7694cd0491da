import Stopwatch.Text.OctetClass

/-!
Patterns of the shell: a star stands for any text, a question mark for one octet, and brackets for one of a set. Quoted
octets stand for themselves.
-/

namespace Stopwatch.Host.Shell

/-- A pattern, octet by octet, with whether the octet was quoted. -/
abbrev Pattern := List (UInt8 × Bool)

namespace Pattern

/-- Whether an octet is in the set that starts here, and what follows the closing bracket; none if nothing closes it. The
first octet of a set never closes it. -/
def inSet (b : UInt8) : Nat → Bool → Bool → Pattern → Option (Bool × Pattern)
  | 0, _, _, _ => none
  | fuel + 1, first, found, p =>
    match p with
    | [] => none
    | (Ascii.closeBracket, false) :: rest => if first then ranged fuel found Ascii.closeBracket rest else some (found, rest)
    | (Ascii.openBracket, false) :: rest =>
      match octetClass? (rest.map Prod.fst) with
      | some (test, after) => inSet b fuel false (found || test b) (rest.drop (rest.length - after.length))
      | none => ranged fuel found Ascii.openBracket rest
    | (Ascii.backslash, false) :: (c, _) :: rest => ranged fuel found c rest
    | (c, _) :: rest => ranged fuel found c rest
where
  /-- One octet of a set, or a range that starts with it. -/
  ranged (fuel : Nat) (found : Bool) (c : UInt8) (rest : Pattern) : Option (Bool × Pattern) :=
    match rest with
    | (Ascii.minus, false) :: (Ascii.closeBracket, false) :: _ => inSet b fuel false (found || b == c) rest
    | (Ascii.minus, false) :: (d, _) :: rest => inSet b fuel false (found || (c ≤ b && b ≤ d)) rest
    | rest => inSet b fuel false (found || b == c) rest

/-- Whether an octet is in a set, from behind its opening bracket, and the pattern behind the set. -/
def set? (b : UInt8) (p : Pattern) : Option (Bool × Pattern) :=
  let negated := p.head? = some (Ascii.bang, false)
  (inSet b (p.length + 1) true false (if negated then p.tail else p)).map fun (found, rest) => (found != negated, rest)

/-- Whether a pattern stands for a text. The first argument bounds the steps. -/
def fits : Nat → Pattern → Bytes → Bool
  | 0, _, _ => false
  | fuel + 1, p, s =>
    match p, s with
    | [], [] => true
    | [], _ :: _ => false
    | (Ascii.star, false) :: rest, s =>
      fits fuel rest s || (match s with
        | [] => false
        | _ :: tail => fits fuel ((Ascii.star, false) :: rest) tail)
    | (Ascii.question, false) :: rest, _ :: tail => fits fuel rest tail
    | (Ascii.openBracket, false) :: rest, b :: tail =>
      match set? b rest with
      | some (inside, after) => inside && fits fuel after tail
      | none => b == Ascii.openBracket && fits fuel rest tail
    | (Ascii.backslash, false) :: (x, _) :: rest, b :: tail => x == b && fits fuel rest tail
    | (x, _) :: rest, b :: tail => x == b && fits fuel rest tail
    | _ :: _, [] => false

def covers (p : Pattern) (s : Bytes) : Bool := fits (2 * (p.length + s.length) + 2) p s

/-- Whether some octet stands for others. -/
def isOpen (p : Pattern) : Bool :=
  p.any fun (b, quoted) => !quoted && (b == Ascii.star || b == Ascii.question || b == Ascii.openBracket)

end Pattern

/-- The text without the shortest or longest beginning that a pattern stands for. -/
def dropStart (p : Pattern) (longest : Bool) (s : Bytes) : Bytes :=
  let sizes := List.range (s.length + 1)
  match (if longest then sizes.reverse else sizes).find? fun n => p.covers (s.take n) with
  | some n => s.drop n
  | none => s

/-- The text without the shortest or longest end that a pattern stands for. -/
def dropEnd (p : Pattern) (longest : Bool) (s : Bytes) : Bytes :=
  let sizes := List.range (s.length + 1)
  match (if longest then sizes else sizes.reverse).find? fun n => p.covers (s.drop n) with
  | some n => s.take n
  | none => s

end Stopwatch.Host.Shell
