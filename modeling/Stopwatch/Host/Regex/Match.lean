import Stopwatch.Text.Ascii

/-!
Regular expressions over octets and the texts that they match. Of all matches at the leftmost place the longest counts.
-/

namespace Stopwatch.Host

inductive Regex where
  | empty
  | any
  /-- One of some octets. -/
  | octets (members : Bytes)
  | seq (a b : Regex)
  | alt (a b : Regex)
  /-- At least so many times, and at most so many if there is a limit. -/
  | times (a : Regex) (least : Nat) (most : Option Nat)
  /-- A part whose match is kept under a number. -/
  | group (number : Nat) (a : Regex)
  /-- The text that a group matched. -/
  | again (number : Nat)
  | lineStart
  | lineEnd
  | wordStart
  | wordEnd
  | wordEdge
  | noWordEdge
  deriving Repr

namespace Regex

/-- A place in a text: what stands before it, the latest first, what follows, and the groups matched so far. -/
structure Place where
  before : Bytes
  rest : Bytes
  groups : List (Nat × Bytes) := []
  /-- The number of octets that follow. -/
  left : Nat := rest.length

def isWord (b : UInt8) : Bool := Ascii.isLetter b || Ascii.isDigit b || b == Ascii.underscore

namespace Place

/-- The place so many octets on. -/
def forward (p : Place) (n : Nat) : Place :=
  { p with before := (p.rest.take n).reverse ++ p.before, rest := p.rest.drop n, left := p.left - n }

/-- Places without those that stand where an earlier one does, the furthest first. -/
def distinct (places : List Place) : List Place :=
  let kept := places.foldl (fun kept p => if kept.any fun k => k.left = p.left then kept else p :: kept) []
  kept.reverse.mergeSort fun a b => a.left ≤ b.left

end Place

/-- All places after a number of rounds of a step. Below `least` every round counts; above it only new places do. -/
def rounds (step : Place → List Place) (least : Nat) (most : Option Nat) : Nat → Nat → List Place → List Place → List Place
  | 0, _, _, found => found
  | fuel + 1, done, places, found =>
    let found := if least ≤ done then places ++ found else found
    if most = some done then found
    else
      let next := Place.distinct (places.flatMap step)
      let next := if least ≤ done then
        next.filter fun p => !found.any fun q => q.left = p.left else next
      if next.isEmpty then found else rounds step least most fuel (done + 1) next found

/-- The places where a match that starts at a place can end, the furthest first. -/
def ends : Regex → Place → List Place
  | .empty, p => [p]
  | .any, p => if p.rest.isEmpty then [] else [p.forward 1]
  | .octets members, p =>
    match p.rest with
    | b :: _ => if members.contains b then [p.forward 1] else []
    | [] => []
  | .seq a b, p => Place.distinct ((ends a p).flatMap (ends b))
  | .alt a b, p => Place.distinct (ends a p ++ ends b p)
  | .times a least most, p =>
    Place.distinct (rounds (ends a) least most (p.left + least + 2) 0 [p] [])
  | .group n a, p =>
    (ends a p).map fun q =>
      { q with groups := (n, p.rest.take (p.left - q.left)) :: q.groups.filter fun g => g.1 ≠ n }
  | .again n, p =>
    match p.groups.lookup n with
    | some s => if Bytes.startsWith s p.rest then [p.forward s.length] else []
    | none => []
  | .lineStart, p => if p.before.isEmpty then [p] else []
  | .lineEnd, p => if p.rest.isEmpty then [p] else []
  | .wordStart, p => if !p.before.head?.any isWord && p.rest.head?.any isWord then [p] else []
  | .wordEnd, p => if p.before.head?.any isWord && !p.rest.head?.any isWord then [p] else []
  | .wordEdge, p => if p.before.head?.any isWord != p.rest.head?.any isWord then [p] else []
  | .noWordEdge, p => if p.before.head?.any isWord != p.rest.head?.any isWord then [] else [p]

/-- The number of groups. -/
def groupCount : Regex → Nat
  | .seq a b => groupCount a + groupCount b
  | .alt a b => groupCount a + groupCount b
  | .times a _ _ => groupCount a
  | .group _ a => groupCount a + 1
  | _ => 0

/-- A match: what stands before it, the text, what follows, and the groups. -/
structure Match where
  before : Bytes
  text : Bytes
  rest : Bytes
  groups : List (Nat × Bytes) := []

/-- The leftmost longest match at a place or behind it; the first argument counts the places left. -/
def search (r : Regex) : Nat → Place → Option Match
  | 0, _ => none
  | fuel + 1, p =>
    match ends r { p with groups := [] } with
    | q :: _ =>
      some { before := p.before.reverse, text := p.rest.take (p.left - q.left), rest := q.rest
             groups := q.groups }
    | [] => if p.rest.isEmpty then none else search r fuel (p.forward 1)

/-- The leftmost longest match in a text. -/
def find? (r : Regex) (s : Bytes) : Option Match := search r (s.length + 1) { before := [], rest := s }

/-- The matches of a text one after the other. A match without text right behind another one does not count. -/
def allFrom (r : Regex) : Nat → Option Nat → Place → List Match
  | 0, _, _ => []
  | fuel + 1, last, p =>
    match search r (p.left + 1) p with
    | none => []
    | some m =>
      let behind : Place := { before := m.text.reverse ++ m.before.reverse, rest := m.rest }
      let next := if m.text.isEmpty then behind.forward 1 else behind
      let more := if m.text.isEmpty && m.rest.isEmpty then [] else allFrom r fuel (some behind.before.length) next
      if m.text.isEmpty && last = some m.before.length then more else m :: more

def all (r : Regex) (s : Bytes) : List Match := allFrom r (s.length + 2) none { before := [], rest := s }

end Regex

end Stopwatch.Host
