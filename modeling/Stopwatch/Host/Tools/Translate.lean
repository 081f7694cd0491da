import Stopwatch.Host.Call
import Stopwatch.Host.Printf
import Stopwatch.Text.OctetClass

/-!
Replacing, deleting and squeezing octets by sets.
-/

namespace Stopwatch.Host.Translate

/-- A piece of a set. -/
inductive Item where
  | octets (s : Bytes)
  /-- A class by name. -/
  | named (name : Bytes)
  /-- One octet so many times; without a number as often as needed. -/
  | repeated (b : UInt8) (n : Option Nat)

/-- The octet at the start of a set, and whether it was written with a backslash. -/
def octet? : Bytes → Option (UInt8 × Bytes)
  | [] => none
  | [b] => some (b, [])
  | b :: c :: rest =>
    if b == Ascii.backslash then
      if Printf.isOctal c then some (Printf.octal 3 (c :: rest)) else some ((Printf.escape? c).getD c, rest)
    else some (b, c :: rest)

/-- A count of a repeated octet: octal behind a zero. -/
def count? (s : Bytes) : Option (Option Nat) :=
  if s.isEmpty then some none
  else
    let base := if s.head? = some Ascii.zero then 8 else 10
    if s.all fun b => (Ascii.digitValue? b).any fun d => d < base then
      let n := s.foldl (fun n b => n * base + (b.toNat - 48)) 0
      some (if n = 0 then none else some n)
    else none

/-- The pieces of a set. -/
def items : Nat → Bytes → Except Bytes (List Item)
  | 0, _ => .ok []
  | fuel + 1, s => do
    let bracketed : Option (Except Bytes (Item × Bytes)) := match s with
      | Ascii.openBracket :: Ascii.colon :: rest =>
        let name := rest.takeWhile (· != Ascii.colon)
        if Bytes.startsWith (utf8 ":]") (rest.drop name.length) then
          if octetClasses.any fun c => utf8 c.1 == name then some (.ok (.named name, rest.drop (name.length + 2)))
          else some (.error (utf8 "invalid character class " ++ quoted name))
        else none
      | Ascii.openBracket :: Ascii.equals :: b :: Ascii.equals :: Ascii.closeBracket :: rest =>
        some (.ok (.octets [b], rest))
      | Ascii.openBracket :: rest =>
        match octet? rest with
        | some (b, Ascii.star :: more) =>
          let digits := more.takeWhile (· != Ascii.closeBracket)
          if (more.drop digits.length).isEmpty then none
          else (count? digits).map fun n => .ok (.repeated b n, more.drop (digits.length + 1))
        | _ => none
      | _ => none
    match bracketed with
    | some r =>
      let (item, rest) ← r
      return item :: (← items fuel rest)
    | none =>
      match octet? s with
      | none => return []
      | some (low, Ascii.minus :: next :: more) =>
        match octet? (next :: more) with
        | none => return [.octets [low]]
        | some (high, rest) =>
          if high < low then
            .error (utf8 "range-endpoints of " ++ quoted [low, Ascii.minus, high]
              ++ utf8 " are in reverse collating sequence order")
          else return .octets (allOctets.filter fun b => low ≤ b && b ≤ high) :: (← items fuel rest)
      | some (b, rest) => return .octets [b] :: (← items fuel rest)

def members (name : Bytes) : Bytes :=
  match octetClasses.find? fun c => utf8 c.1 == name with
  | some (_, test) => allOctets.filter test
  | none => []

/-- The octets of a set. An octet repeated as often as needed fills up to a length. -/
def expand (length : Nat) (l : List Item) : Bytes :=
  let fixed := (l.map fun
    | .octets s => s.length
    | .named n => (members n).length
    | .repeated _ (some k) => k
    | .repeated _ none => 0).foldl (· + ·) 0
  l.flatMap fun
    | .octets s => s
    | .named n => members n
    | .repeated b (some k) => List.replicate k b
    | .repeated b none => List.replicate (length - fixed) b

/-- The pairs of a translation; a shorter second set goes on with its last octet. -/
def pairs (first second : Bytes) : List (UInt8 × UInt8) :=
  let last := second.getLast?.getD 0
  first.zip (second ++ List.replicate (first.length - second.length) last)

/-- An octet that is repeated stays once, if it is in a set. -/
def squeeze (set : Bytes) (s : Bytes) : Bytes :=
  (s.foldl (fun acc b => if acc.head? = some b && set.contains b then acc else b :: acc) []).reverse

def options : Options :=
  { flags := "cCdst"
    long := [("complement", 'c'), ("delete", 'd'), ("squeeze-repeats", 's'), ("truncate-set1", 't')] }

/-- The complaint about the number of sets, if it is wrong. -/
def operandTrouble (deletes squeezes : Bool) : List Bytes → Option Bytes
  | [] => some (utf8 "missing operand")
  | [a] =>
    if deletes && squeezes then
      some (utf8 "missing operand after " ++ quoted a
        ++ utf8 "\nTwo strings must be given when both deleting and squeezing repeats.")
    else if deletes || squeezes then none
    else some (utf8 "missing operand after " ++ quoted a ++ utf8 "\nTwo strings must be given when translating.")
  | [_, b] =>
    if deletes && !squeezes then
      some (utf8 "extra operand " ++ quoted b
        ++ utf8 "\nOnly one string may be given when deleting without squeezing repeats.")
    else none
  | _ :: _ :: c :: _ => some (utf8 "extra operand " ++ quoted c)

/-- What is wrong with the classes of the second set. -/
def classTrouble (first second : List Item) : Option Bytes :=
  let isCase (n : Bytes) : Bool := n == utf8 "upper" || n == utf8 "lower"
  let names (l : List Item) : List Bytes := l.filterMap fun
    | .named n => some n
    | _ => none
  if (names second).any fun n => !isCase n then
    some (utf8 "when translating, the only character classes that may appear in\nstring2 are 'upper' and 'lower'")
  else if ((names second).zip (names first ++ List.replicate second.length [])).any fun (_, n) => !isCase n then
    some (utf8 "misaligned [:upper:] and/or [:lower:] construct")
  else none

/-- The octets of the output for each octet of the input, before squeezing, and the set that is squeezed. -/
def plan (g : Given) (first second : List Item) : (UInt8 → Bytes) × Bytes :=
  let complement := g.has 'c' || g.has 'C'
  let a := expand 0 first
  let a := if complement then allOctets.filter fun b => !a.contains b else a
  if g.has 'd' then
    (fun b => if a.contains b then [] else [b], if g.has 's' then expand 0 second else [])
  else if second.isEmpty then (fun b => [b], a)
  else
    let b := expand a.length second
    let a := if g.has 't' then a.take b.length else a
    let table := (pairs a b).reverse
    (fun x => [(table.lookup x).getD x], if g.has 's' then b else [])

def tool (c : Call) : Effect :=
  c.withOptions "tr" 1 options fun g =>
    match operandTrouble (g.has 'd') (g.has 's') g.words with
    | some text => .misuse "tr" 1 text
    | none =>
      let sets := g.words.map fun w => items (w.length + 1) w
      match sets.mapM id with
      | .error text => .fail 1 (utf8 "tr: " ++ text)
      | .ok sets =>
        let first := sets.head?.getD []
        let second := (sets[1]?).getD []
        let translates := !g.has 'd' && g.words.length = 2
        match (if translates then classTrouble first second else none) with
        | some text => .fail 1 (utf8 "tr: " ++ text)
        | none =>
          if translates && second.isEmpty && !g.has 't' && !first.isEmpty then
            .fail 1 (utf8 "tr: when not truncating set1, string2 must be non-empty")
          else
            let (change, squeezed) := plan g first second
            let changed := c.input.mapBytes change
            { out := if squeezed.isEmpty then changed
                else if changed.isFinite then Data.ofBytes (squeeze squeezed changed.bytes) else changed
              reads := true }

end Stopwatch.Host.Translate
