import Stopwatch.Host.Call
import Stopwatch.Text.OctetClass

/-!
Putting lines in order, and dropping or comparing neighbours in ordered lines.
-/

namespace Stopwatch.Host

namespace Sorting

/-- How two texts are compared. -/
inductive Order where
  | octets
  | number
  | general
  | human
  | version
  | month
  deriving DecidableEq

/-- The rules of a comparison. -/
structure Rules where
  order : Order := .octets
  reversed : Bool := false
  folded : Bool := false
  dictionary : Bool := false
  printable : Bool := false
  /-- Whether blanks at the start of the first and of the last field do not count. -/
  startBlanks : Bool := false
  endBlanks : Bool := false
  /-- Whether any rule was given. -/
  given : Bool := false

/-- A part of a line that is compared: from an octet of a field to an octet of another. -/
structure Key where
  field : Nat
  offset : Nat := 0
  last : Option (Nat × Nat) := none
  rules : Rules := {}

def isBlank (b : UInt8) : Bool := b == Ascii.space || b == Ascii.tab || b == Ascii.newline

/-- The number of octets in front of a field. -/
def fieldStart (tab : Option UInt8) : Nat → Bytes → Nat
  | 0, _ => 0
  | n + 1, s =>
    match tab with
    | some t =>
      let width := (s.takeWhile (· != t)).length
      if width < s.length then width + 1 + fieldStart tab n (s.drop (width + 1)) else s.length
    | none =>
      let blanks := (s.takeWhile isBlank).length
      let word := ((s.drop blanks).takeWhile fun b => !isBlank b).length
      blanks + word + fieldStart tab n (s.drop (blanks + word))

/-- The number of octets up to the end of a field. -/
def fieldEnd (tab : Option UInt8) (n : Nat) (s : Bytes) : Nat :=
  match tab with
  | some t =>
    let start := fieldStart tab n s
    start + ((s.drop start).takeWhile (· != t)).length
  | none => fieldStart tab (n + 1) s

/-- The part of a line that a key names. -/
def Key.text (k : Key) (tab : Option UInt8) (line : Bytes) : Bytes :=
  let skipped (on : Bool) (n : Nat) : Nat := if on then n + ((line.drop n).takeWhile isBlank).length else n
  let start := min line.length (skipped k.rules.startBlanks (fieldStart tab k.field line) + k.offset)
  let finish := match k.last with
    | none => line.length
    | some (field, 0) => fieldEnd tab field line
    | some (field, offset) => min line.length (skipped k.rules.endBlanks (fieldStart tab field line) + offset)
  (line.take finish).drop start

/-- A decimal numeral at the start of a text: its sign, its digits, and how many of them follow the point. -/
def decimal (s : Bytes) : Int × Nat × Bytes :=
  let s := s.dropWhile isBlank
  let (negative, s) := if s.head? = some Ascii.minus then (true, s.tail) else (false, s)
  let whole := s.takeWhile Ascii.isDigit
  let rest := s.drop whole.length
  let part := if rest.head? = some Ascii.dot then rest.tail.takeWhile Ascii.isDigit else []
  let rest := if rest.head? = some Ascii.dot then rest.drop (part.length + 1) else rest
  let n : Nat := (whole ++ part).foldl (fun n d => n * 10 + (d.toNat - 48)) 0
  (if negative then -(n : Int) else n, part.length, rest)

def compareNumbers (a b : Bytes) : Ordering :=
  let (x, p, _) := decimal a
  let (y, q, _) := decimal b
  compare (x * Nat.pow 10 q) (y * Nat.pow 10 p)

/-- The power that a suffix stands for. -/
def suffixRank (s : Bytes) : Nat :=
  match s with
  | b :: _ => if b == 0x6b then 1 else ((utf8 "KMGTPEZYRQ").idxOf? b).elim 0 (· + 1)
  | [] => 0

def compareHuman (a b : Bytes) : Ordering :=
  let rank (s : Bytes) : Int :=
    let (x, _, rest) := decimal s
    let r := (suffixRank rest : Int)
    if x = 0 then 0 else if x < 0 then -r else r
  (compare (rank a) (rank b)).then (compareNumbers a b)

/-- The rank of an octet outside of numerals in version order. -/
def versionRank (b : UInt8) : Nat :=
  if b == Ascii.tilde then 0 else if Ascii.isLetter b then b.toNat + 2 else b.toNat + 258

/-- Version order: runs of digits compare as numbers, everything else octet by octet. -/
def compareVersions : Nat → Bytes → Bytes → Ordering
  | 0, _, _ => .eq
  | fuel + 1, a, b =>
    let x := a.takeWhile fun c => !Ascii.isDigit c
    let y := b.takeWhile fun c => !Ascii.isDigit c
    let ranks (s : Bytes) : List Nat := s.map versionRank ++ [1]
    match compareOfLessAndEq (ranks x) (ranks y) with
    | .eq =>
      let a := a.drop x.length
      let b := b.drop y.length
      if a.isEmpty && b.isEmpty then .eq
      else
        let m := a.takeWhile Ascii.isDigit
        let n := b.takeWhile Ascii.isDigit
        let value (s : Bytes) : Nat := s.foldl (fun n d => n * 10 + (d.toNat - 48)) 0
        (compare (value m) (value n)).then (compareVersions fuel (a.drop m.length) (b.drop n.length))
    | other => other

def monthNames : List String := ["JAN", "FEB", "MAR", "APR", "MAY", "JUN", "JUL", "AUG", "SEP", "OCT", "NOV", "DEC"]

def monthRank (s : Bytes) : Nat :=
  let s := ((s.dropWhile isBlank).take 3).map Ascii.upper
  (monthNames.findIdx? fun n => utf8 n == s).elim 0 (· + 1)

/-- The rank and the value of a numeral of any form; what is none comes first. -/
def compareGeneral (a b : Bytes) : Ordering :=
  match Leading.double? (a.dropWhile isBlank), Leading.double? (b.dropWhile isBlank) with
  | some (x, _), some (y, _) => if x < y then .lt else if y < x then .gt else .eq
  | some _, none => .gt
  | none, some _ => .lt
  | none, none => .eq

def compareOctets (a b : Bytes) : Ordering := if a < b then .lt else if b < a then .gt else .eq

/-- The texts compared by rules. -/
def Rules.compare (r : Rules) (a b : Bytes) : Ordering :=
  let prepare (s : Bytes) : Bytes :=
    let s := if r.dictionary then s.filter fun b => Ascii.isLetter b || Ascii.isDigit b || isBlank b else s
    let s := if r.printable then s.filter fun b => 0x20 ≤ b && b < 0x7f else s
    if r.folded then s.map Ascii.upper else s
  let result := match r.order with
    | .octets => compareOctets (prepare a) (prepare b)
    | .number => compareNumbers a b
    | .general => compareGeneral a b
    | .human => compareHuman a b
    | .version => compareVersions (a.length + b.length + 1) a b
    | .month => Ord.compare (monthRank a) (monthRank b)
  if r.reversed then result.swap else result

/-- A rule by its letter. -/
def Rules.add (r : Rules) (letter : Char) : Option Rules :=
  let r := { r with given := true }
  match letter with
  | 'b' => some { r with startBlanks := true, endBlanks := true }
  | 'd' => some { r with dictionary := true }
  | 'f' => some { r with folded := true }
  | 'g' => some { r with order := .general }
  | 'h' => some { r with order := .human }
  | 'i' => some { r with printable := true }
  | 'M' => some { r with order := .month }
  | 'n' => some { r with order := .number }
  | 'r' => some { r with reversed := true }
  | 'R' => some r
  | 'V' => some { r with order := .version }
  | _ => none

/-- A position in a key: a field, and an octet behind a dot. -/
def position (s : Bytes) : Option (Nat × Option Nat × Bytes) :=
  let number (s : Bytes) : Option Nat × Bytes :=
    let digits := s.takeWhile Ascii.isDigit
    (if digits.isEmpty then none else naturalOf digits, s.drop digits.length)
  match number s with
  | (none, _) => none
  | (some field, Ascii.dot :: rest) =>
    match number rest with
    | (some offset, rest) => some (field, some offset, rest)
    | (none, rest) => some (field, none, rest)
  | (some field, rest) => some (field, none, rest)

/-- Reads a key such as `2.3nr,4`. -/
def key (s : Bytes) : Except Bytes Key := do
  let bad (reason : String) : Bytes := utf8 reason ++ utf8 ": invalid field specification " ++ quoted s
  let letters (rest : Bytes) (k : Key) (atEnd : Bool) : Key × Bytes :=
    let run := rest.takeWhile fun b => (({} : Rules).add (Char.ofNat b.toNat)).isSome
    let rules := run.foldl (fun r b =>
      if b == 0x62 then
        if atEnd then { r with endBlanks := true, given := true } else { r with startBlanks := true, given := true }
      else (r.add (Char.ofNat b.toNat)).getD r) k.rules
    ({ k with rules }, rest.drop run.length)
  match position s with
  | none => .error (utf8 "invalid number at field start: invalid count at start of " ++ quoted s)
  | some (0, _, _) => .error (bad "field number is zero")
  | some (_, some 0, _) => .error (bad "character offset is zero")
  | some (field, offset, rest) =>
    let (k, rest) := letters rest { field := field - 1, offset := offset.getD 1 - 1 } false
    match rest with
    | Ascii.comma :: more =>
      match position more with
      | none => .error (utf8 "invalid number after ',': invalid count at start of " ++ quoted more)
      | some (0, _, _) => .error (bad "field number is zero")
      | some (field, offset, rest) =>
        let (k, rest) := letters rest { k with last := some (field - 1, offset.getD 0) } true
        if rest.isEmpty then return k else .error (bad "stray character in field spec")
    | [] => return k
    | _ => .error (bad "stray character in field spec")

structure Plan where
  keys : List Key := []
  rules : Rules := {}
  tab : Option UInt8 := none
  unique : Bool := false
  stable : Bool := false

/-- Two lines compared by the keys alone. -/
def Plan.compareKeys (p : Plan) (a b : Bytes) : Ordering :=
  if p.keys.isEmpty then
    let k : Key := { field := 0, rules := p.rules }
    p.rules.compare (k.text none a) (k.text none b)
  else
    p.keys.foldl (fun result k =>
      let k := if k.rules.given then k else { k with rules := p.rules }
      result.then (k.rules.compare (k.text p.tab a) (k.text p.tab b))) .eq

/-- Two lines compared: equal keys leave the decision to the whole lines. -/
def Plan.compare (p : Plan) (a b : Bytes) : Ordering :=
  let result := p.compareKeys a b
  if p.unique || p.stable then result
  else
    let whole := compareOctets a b
    result.then (if p.rules.reversed then whole.swap else whole)

/-- Ordered lines without those that equal the one before. -/
def Plan.distinct (p : Plan) (lines : List Bytes) : List Bytes :=
  (lines.foldl (fun acc l =>
    match acc with
    | last :: _ => if p.compareKeys last l = .eq then acc else l :: acc
    | [] => [l]) []).reverse

def Plan.sort (p : Plan) (lines : List Bytes) : List Bytes :=
  let sorted := lines.mergeSort fun a b => p.compare a b != .gt
  if p.unique then p.distinct sorted else sorted

/-- The first line, by number, that stands in the wrong place. -/
def Plan.disorder? (p : Plan) (lines : List Bytes) : Option (Nat × Bytes) :=
  ((lines.zip lines.tail).zipIdx.find? fun ((a, b), _) =>
    match p.compare a b with
    | .gt => true
    | .eq => p.unique
    | .lt => false).map fun ((_, b), i) => (i + 2, b)

def options : Options :=
  { flags := "bdfghiMnrRVcCmsuz", valued := "kotST"
    long := [("ignore-leading-blanks", 'b'), ("dictionary-order", 'd'), ("ignore-case", 'f'), ("general-numeric-sort", 'g'),
      ("human-numeric-sort", 'h'), ("ignore-nonprinting", 'i'), ("month-sort", 'M'), ("numeric-sort", 'n'),
      ("reverse", 'r'), ("random-sort", 'R'), ("version-sort", 'V'), ("check", 'c'), ("merge", 'm'), ("stable", 's'),
      ("unique", 'u'), ("zero-terminated", 'z'), ("key", 'k'), ("output", 'o'), ("field-separator", 't')] }

/-- Orders that cannot be asked for together. -/
def incompatible (g : Given) : Option Bytes :=
  let numeric := "ghMn".toList.filter g.has
  let plain := "di".toList.filter g.has
  let letters := if numeric.isEmpty then [] else
    "dghinMRV".toList.filter fun c => numeric.contains c || plain.contains c || (g.has c && (c = 'R' || c = 'V'))
  if 1 < letters.length then some (letters.map Char.toUInt8) else none

def tool (c : Call) : Effect :=
  c.withOptions "sort" 2 options fun g =>
    match g.options.foldr (fun o acc => do
        let keys ← acc
        if o.1 = 'k' then return (← key o.2) :: keys else return keys) (.ok []) with
    | .error message => .fail 2 (utf8 "sort: " ++ message)
    | .ok keys =>
      match incompatible g, g.value? 't' with
      | some letters, _ => .fail 2 (utf8 "sort: options " ++ quoted (utf8 "-" ++ letters) ++ utf8 " are incompatible")
      | _, some [] => .fail 2 (utf8 "sort: empty tab")
      | _, tab =>
        let octet : Except Bytes (Option UInt8) := match tab with
          | none => .ok none
          | some [b] => .ok (some b)
          | some s => if s == utf8 "\\0" then .ok (some 0) else .error s
        match octet with
        | .error s => .fail 2 (utf8 "sort: multi-character tab " ++ quoted s)
        | .ok tab =>
          let rules := g.options.foldl (fun r o => (r.add o.1).getD r) ({} : Rules)
          let plan : Plan := { keys, rules, tab, unique := g.has 'u', stable := g.has 's' }
          let paths := if g.words.isEmpty then [utf8 "-"] else g.words
          match paths.find? fun p => !(c.open? p).isOk with
          | some path =>
            let text := match c.open? path with
              | .error t => t
              | .ok _ => []
            let front := if text == utf8 "Is a directory" then "sort: read failed: " else "sort: cannot read: "
            .fail 2 (utf8 front ++ path ++ utf8 ": " ++ text)
          | none =>
            let lines := paths.flatMap fun p => plainLines (((c.open? p).toOption.getD []).bounded 1).bytes
            let reads := paths.contains (utf8 "-")
            if g.has 'c' || g.has 'C' then
              match plan.disorder? lines with
              | none => { reads }
              | some (n, l) =>
                if g.has 'C' then { status := 1, reads }
                else
                  { Effect.fail 1 (utf8 "sort: " ++ paths.head?.getD [] ++ utf8 ":" ++ Integer.ofNat n
                      ++ utf8 ": disorder: " ++ l) with reads }
            else
              let text := unlines (plan.sort lines)
              match g.value? 'o' with
              | some path => { files := some (c.files.write (c.path path) text), reads }
              | none => { out := Data.ofBytes text, reads }

end Sorting

/-- Neighbours that are equal, together. -/
def runsOf (same : Bytes → Bytes → Bool) : List Bytes → List (List Bytes)
  | [] => []
  | l :: rest =>
    match runsOf same rest with
    | (m :: run) :: more => if same l m then (l :: m :: run) :: more else [l] :: (m :: run) :: more
    | _ => [[l]]

/-- Drops or shows neighbours that are equal. -/
def uniqTool (c : Call) : Effect :=
  let o : Options :=
    { flags := "cdDuiz", valued := "fsw"
      long := [("count", 'c'), ("repeated", 'd'), ("unique", 'u'), ("ignore-case", 'i'), ("skip-fields", 'f'),
        ("skip-chars", 's'), ("check-chars", 'w'), ("zero-terminated", 'z')] }
  c.withOptions "uniq" 1 o fun g =>
    let kind (letter : Char) : String := match letter with
      | 'f' => "fields to skip"
      | 's' => "bytes to skip"
      | _ => "bytes to compare"
    match g.options.find? fun o => (o.1 = 'f' || o.1 = 's' || o.1 = 'w') && (naturalOf o.2).isNone, g.words with
    | some (letter, v), _ => .fail 1 (utf8 "uniq: " ++ v ++ utf8 ": invalid number of " ++ utf8 (kind letter))
    | none, _ :: _ :: extra :: _ => .misuse "uniq" 1 (utf8 "extra operand " ++ quoted extra)
    | none, words =>
      let path := words.head?.getD (utf8 "-")
      match c.open? path with
      | .error text => .fail 1 (utf8 "uniq: " ++ path ++ utf8 ": " ++ text)
      | .ok data =>
        let number (letter : Char) : Option Nat := (g.value? letter).bind naturalOf
        let part (l : Bytes) : Bytes :=
          let l := l.drop (Sorting.fieldStart none ((number 'f').getD 0) l)
          let l := l.drop ((number 's').getD 0)
          let l := match number 'w' with
            | some n => l.take n
            | none => l
          if g.has 'i' then l.map Ascii.lower else l
        let runs := runsOf (fun a b => part a == part b) (plainLines (data.bounded 1).bytes)
        let runs := if g.has 'd' || g.has 'D' then runs.filter fun r => 1 < r.length else runs
        let runs := if g.has 'u' then runs.filter fun r => r.length = 1 else runs
        let text := runs.flatMap fun r =>
          if g.has 'D' then unlines r
          else
            (if g.has 'c' then Bytes.padLeft 7 (Integer.ofNat r.length) ++ [Ascii.space] else [])
              ++ r.head?.getD [] ++ [Ascii.newline]
        let reads := path == utf8 "-"
        match words[1]? with
        | some target => { files := some (c.files.write (c.path target) text), reads }
        | none => { out := Data.ofBytes text, reads }

/-- The lines of two ordered lists, each with the column that it belongs to. -/
def merged : Nat → List Bytes → List Bytes → List (Nat × Bytes)
  | 0, _, _ => []
  | _, [], bs => bs.map fun b => (2, b)
  | _, as, [] => as.map fun a => (1, a)
  | fuel + 1, a :: as, b :: bs =>
    if a == b then (3, a) :: merged fuel as bs
    else if a < b then (1, a) :: merged fuel as (b :: bs)
    else (2, b) :: merged fuel (a :: as) bs

/-- Compares two ordered files line by line. -/
def commTool (c : Call) : Effect :=
  c.withOptions "comm" 1 { flags := "123" } fun g =>
    match g.words with
    | [] => .misuse "comm" 1 (utf8 "missing operand")
    | [a] => .misuse "comm" 1 (utf8 "missing operand after " ++ quoted a)
    | _ :: _ :: extra :: _ => .misuse "comm" 1 (utf8 "extra operand " ++ quoted extra)
    | [a, b] =>
      match c.open? a, c.open? b with
      | .error text, _ => .fail 1 (utf8 "comm: " ++ a ++ utf8 ": " ++ text)
      | _, .error text => .fail 1 (utf8 "comm: " ++ b ++ utf8 ": " ++ text)
      | .ok x, .ok y =>
        let xs := plainLines x.bytes
        let ys := plainLines y.bytes
        let hidden (column : Nat) : Bool := g.has (Char.ofNat (48 + column))
        let tabs (column : Nat) : Nat := ((List.range (column - 1)).filter fun i => !hidden (i + 1)).length
        let lines := (merged (xs.length + ys.length + 1) xs ys).filter fun l => !hidden l.1
        { out := Data.ofBytes (lines.flatMap fun (column, l) =>
            List.replicate (tabs column) Ascii.tab ++ l ++ [Ascii.newline])
          reads := a == utf8 "-" || b == utf8 "-" }

end Stopwatch.Host
