import Stopwatch.Number.Layout
import Stopwatch.Number.Leading

/-!
Formatted printing as the host's programs do it: escapes in the format, conversions of the arguments, and the format
used again while arguments are left.
-/

namespace Stopwatch.Host.Printf

/-- The octet that a letter after a backslash stands for. -/
def escape? (b : UInt8) : Option UInt8 :=
  if b == 0x61 then some 0x07
  else if b == 0x62 then some 0x08
  else if b == 0x65 then some 0x1b
  else if b == 0x66 then some 0x0c
  else if b == 0x6e then some 0x0a
  else if b == 0x72 then some 0x0d
  else if b == 0x74 then some 0x09
  else if b == 0x76 then some 0x0b
  else if b == Ascii.backslash then some b
  else none

def isOctal (b : UInt8) : Bool := 0x30 ≤ b && b ≤ 0x37

/-- The octet of up to so many octal digits, and what follows them. -/
def octal (most : Nat) (s : Bytes) : UInt8 × Bytes :=
  let digits := (s.take most).takeWhile isOctal
  ((digits.foldl (fun (n : Nat) (d : UInt8) => n * 8 + (d.toNat - 48)) 0).toUInt8, s.drop digits.length)

/-- The octets that an escape stands for, from behind its backslash, and what follows it. -/
def escaped (s : Bytes) : Bytes × Bytes :=
  match s with
  | [] => ([Ascii.backslash], [])
  | b :: rest =>
    if isOctal b then
      let (v, after) := octal 3 s
      ([v], after)
    else
      match escape? b with
      | some v => ([v], rest)
      | none => ([Ascii.backslash, b], rest)

/-- A text with its escapes resolved, and whether an escape ended all output. A zero in front of an octal number does not
count among its digits. -/
def unescape : Nat → Bytes → List Bytes → Bytes × Bool
  | 0, _, acc => (acc.reverse.flatten, false)
  | fuel + 1, s, acc =>
    let plain := s.takeWhile (· != Ascii.backslash)
    match s.drop plain.length with
    | [] => ((plain :: acc).reverse.flatten, false)
    | _ :: rest =>
      match rest with
      | [] => (([Ascii.backslash] :: plain :: acc).reverse.flatten, false)
      | c :: after =>
        if c == 0x63 then ((plain :: acc).reverse.flatten, true)
        else if c == Ascii.zero then
          let (v, after) := octal 3 after
          unescape fuel after ([v] :: plain :: acc)
        else
          let (text, after) := escaped rest
          unescape fuel after (text :: plain :: acc)

/-- How `echo` resolves escapes. -/
def echoText (s : Bytes) : Bytes × Bool :=
  if s.contains Ascii.backslash then unescape (s.length + 1) s [] else (s, false)

/-- A conversion: its flags, width, places and letter. -/
structure Conversion where
  left : Bool := false
  zeros : Bool := false
  plus : Bool := false
  blank : Bool := false
  sharp : Bool := false
  width : Nat := 0
  places : Option Nat := none
  letter : UInt8 := 0

namespace Conversion

/-- A text brought to the width: a sign and a mark first, then digits. With `fills` zeros may fill up. -/
def pad (c : Conversion) (fills : Bool) (front digits : Bytes) : Bytes :=
  let missing := c.width - (front.length + digits.length)
  if c.left then front ++ digits ++ List.replicate missing Ascii.space
  else if c.zeros && fills then front ++ List.replicate missing Ascii.zero ++ digits
  else List.replicate missing Ascii.space ++ front ++ digits

def sign (c : Conversion) (negative : Bool) : Bytes :=
  if negative then [Ascii.minus] else if c.plus then [Ascii.plus] else if c.blank then [Ascii.space] else []

/-- The digits of a number in a base. -/
def digitsIn (base : Nat) (upper : Bool) : Nat → Nat → Bytes → Bytes
  | 0, _, acc => acc
  | fuel + 1, n, acc =>
    let d := Ascii.hexDigit (n % base)
    let d := if upper then Ascii.upper d else d
    if n < base then d :: acc else digitsIn base upper fuel (n / base) (d :: acc)

/-- Digits brought to the number of places. -/
def padded (c : Conversion) (n : Nat) (digits : Bytes) : Bytes :=
  match c.places with
  | some 0 => if n = 0 then [] else digits
  | some p => List.replicate (p - digits.length) Ascii.zero ++ digits
  | none => digits

/-- A number with a sign. -/
def signed (c : Conversion) (n : Int) : Bytes :=
  c.pad c.places.isNone (c.sign (n < 0)) (c.padded n.natAbs (Integer.ofNat n.natAbs))

/-- A number without a sign, in a base. -/
def unsigned (c : Conversion) (base n : Nat) : Bytes :=
  let upper := c.letter == 0x58
  let digits := c.padded n (digitsIn base upper 64 n [])
  let digits := if base = 8 && c.sharp && digits.head? ≠ some Ascii.zero then Ascii.zero :: digits else digits
  let mark := if base = 16 && c.sharp && n ≠ 0 then (if upper then utf8 "0X" else utf8 "0x") else []
  c.pad c.places.isNone mark digits

/-- A text, cut to the places. -/
def text (c : Conversion) (s : Bytes) : Bytes :=
  c.pad false [] (match c.places with
    | some n => s.take n
    | none => s)

/-- Digits without zeros at the end behind a point. -/
def trimmed (s : Bytes) : Bytes :=
  if s.contains Ascii.dot then
    let kept := (s.reverse.dropWhile (· == Ascii.zero)).reverse
    if kept.getLast? = some Ascii.dot then kept.dropLast else kept
  else s

/-- A point where the sharp flag asks for one. -/
def pointed (c : Conversion) (s : Bytes) : Bytes := if c.sharp && !s.contains Ascii.dot then s ++ [Ascii.dot] else s

/-- Hexadecimal notation of `m · 2ᵉ`. -/
def hexadecimal (c : Conversion) (m : Nat) (e : Int) : Bytes :=
  let exponentText (x : Int) : Bytes :=
    0x70 :: (if x < 0 then Ascii.minus else Ascii.plus) :: Integer.ofNat x.natAbs
  if m = 0 then c.pointed ([Ascii.zero] ++ (match c.places with
      | some (p + 1) => Ascii.dot :: List.replicate (p + 1) Ascii.zero
      | _ => [])) ++ exponentText 0
  else
    let lead := m.log2
    let fraction : Nat := (m - Nat.pow 2 lead) * Nat.pow 2 (52 - lead)
    let x := e + lead
    let (lead, fraction, places) : Nat × Nat × Nat := match c.places with
      | none =>
        let digits := digitsIn 16 false 64 (Nat.pow 2 52 + fraction) []
        (1, fraction, ((digits.tail.reverse.dropWhile (· == Ascii.zero)).length))
      | some p =>
        if 13 ≤ p then (1, fraction * Nat.pow 16 (p - 13), p)
        else
          let r := Double.roundDiv (Nat.pow 2 52 + fraction) (Nat.pow 16 (13 - p))
          (r / Nat.pow 16 p, r % Nat.pow 16 p, p)
    let digits : Bytes := match c.places with
      | none => (digitsIn 16 false 64 (Nat.pow 2 52 + fraction) []).tail.take places
      | some p => (digitsIn 16 false 64 (Nat.pow 16 p + fraction) []).tail
    Integer.ofNat lead ++ (if digits.isEmpty then (if c.sharp then [Ascii.dot] else []) else Ascii.dot :: digits)
      ++ exponentText x

/-- The digits of a finite number `m · 2ᵉ`. -/
def finite (c : Conversion) (m : Nat) (e : Int) : Bytes :=
  let places := c.places.getD 6
  let kind := Ascii.lower c.letter
  if kind == 0x66 then
    let (num, den) := Double.scaleDown (Double.ratio m e) (-places)
    c.pointed (Layout.withPlaces places (Double.roundDiv num den))
  else if kind == 0x65 then
    let n := Layout.roundedNumeral places m e
    c.pointed (Layout.pointed n.digits) ++ Layout.exponentMark 2 n.exponent
  else
    let places := if places = 0 then 1 else places
    let n := Layout.roundedNumeral (places - 1) m e
    let tidy (s : Bytes) : Bytes := if c.sharp then c.pointed s else trimmed s
    if n.exponent < -4 || (places : Int) ≤ n.exponent then tidy (Layout.pointed n.digits) ++ Layout.exponentMark 2 n.exponent
    else
      let after := ((places : Int) - 1 - n.exponent).toNat
      let (num, den) := Double.scaleDown (Double.ratio m e) (-after)
      tidy (Layout.withPlaces after (Double.roundDiv num den))

/-- A double. -/
def double (c : Conversion) (x : Float) : Bytes :=
  let upper := Ascii.isUpper c.letter
  let cased (s : Bytes) : Bytes := if upper then s.map Ascii.upper else s
  match Double.ofFloat x with
  | .nan => c.pad false (c.sign false) (cased (utf8 "nan"))
  | .infinite negative => c.pad false (c.sign negative) (cased (utf8 "inf"))
  | .finite negative m e =>
    if Ascii.lower c.letter == 0x61 then c.pad true (c.sign negative ++ cased (utf8 "0x")) (cased (c.hexadecimal m e))
    else c.pad true (c.sign negative) (cased (c.finite m e))

end Conversion

/-- What is wrong with an argument. -/
inductive Flaw where
  | noNumber
  | partly
  | outOfRange
  deriving DecidableEq, Repr

/-- The output of a format in pieces, the latest first, with what was wrong with arguments. -/
structure Output where
  pieces : List Bytes := []
  flaws : List (Bytes × Flaw) := []
  args : List Bytes := []
  /-- Whether an argument was asked for. -/
  used : Bool := false
  /-- Whether nothing more is printed. -/
  stops : Bool := false
  /-- The conversion that is none, or nothing if the format ended in one. -/
  bad : Option Bytes := none

namespace Output

def add (o : Output) (s : Bytes) : Output := { o with pieces := s :: o.pieces }

def text (o : Output) : Bytes := o.pieces.reverse.flatten

/-- The next argument. -/
def next (o : Output) : Option Bytes × Output := (o.args.head?, { o with args := o.args.tail, used := true })

/-- Notes what is wrong with an argument of which some text is left over. -/
def check (o : Output) (arg rest : Bytes) (fits : Bool) : Output :=
  let flaw : Option Flaw :=
    if !rest.isEmpty then some (if rest.length = arg.length then .noNumber else .partly)
    else if fits then none
    else some .outOfRange
  match flaw with
  | some f => { o with flaws := o.flaws ++ [(arg, f)] }
  | none => o

/-- The next argument as a whole number: of 64 bits with a sign or without. A quote in front takes the number of a
character. -/
def whole (o : Output) (signed : Bool) : Int × Output :=
  match o.next with
  | (none, o) => (0, o)
  | (some arg, o) =>
    if arg.head?.any fun q => q == Ascii.singleQuote || q == Ascii.doubleQuote then
      (((arg[1]?).getD 0).toNat, o)
    else
      match Leading.integer? none arg with
      | none => (0, o.check arg arg true)
      | some (n, rest) =>
        if signed then
          let (v, fits) := Leading.clamp n
          (v.toInt, o.check arg rest fits)
        else if n.natAbs < Nat.pow 2 64 then (n % Int.pow 2 64, o.check arg rest true)
        else (Int.pow 2 64 - 1, o.check arg rest false)

/-- The next argument as a double. -/
def double (o : Output) : Float × Output :=
  match o.next with
  | (none, o) => (0.0, o)
  | (some arg, o) =>
    if arg.head?.any fun q => q == Ascii.singleQuote || q == Ascii.doubleQuote then
      (((arg[1]?).getD 0).toNat.toFloat, o)
    else
      match Leading.double? arg with
      | none => (0.0, o.check arg arg true)
      | some (x, rest) => (x, o.check arg rest true)

end Output

def number (s : Bytes) : Nat × Bytes :=
  let digits := s.takeWhile Ascii.isDigit
  (digits.foldl (fun n d => n * 10 + (d.toNat - 48)) 0, s.drop digits.length)

/-- The conversion behind a percent sign; stars take arguments. -/
def conversion (s : Bytes) (o : Output) : Conversion × Bytes × Output :=
  let flags := s.takeWhile fun b => (utf8 "-0+ #").contains b
  let s := s.drop flags.length
  let c : Conversion :=
    { left := flags.contains Ascii.minus, zeros := flags.contains Ascii.zero, plus := flags.contains Ascii.plus
      blank := flags.contains Ascii.space, sharp := flags.contains Ascii.hash }
  let (c, s, o) := match s with
    | Ascii.star :: rest =>
      let (n, o) := o.whole true
      ({ c with width := n.natAbs, left := c.left || n < 0 }, rest, o)
    | s => let (n, rest) := number s; ({ c with width := n }, rest, o)
  let (c, s, o) := match s with
    | Ascii.dot :: Ascii.star :: rest =>
      let (n, o) := o.whole true
      ({ c with places := if n < 0 then none else some n.toNat }, rest, o)
    | Ascii.dot :: rest => let (n, rest) := number rest; ({ c with places := some n }, rest, o)
    | s => (c, s, o)
  ({ c with letter := s.head?.getD 0 }, s.drop 1, o)

/-- Adds an argument under a conversion; none if the letter stands for none. -/
def convert (c : Conversion) (o : Output) : Option Output :=
  let is (letters : String) : Bool := (utf8 letters).contains c.letter
  if is "s" then
    let (arg, o) := o.next
    some (o.add (c.text (arg.getD [])))
  else if is "b" then
    let (arg, o) := o.next
    let (s, stops) := echoText (arg.getD [])
    some { o.add (c.text s) with stops }
  else if is "c" then
    let (arg, o) := o.next
    let arg := arg.getD []
    some (o.add (c.pad false [] (if arg.isEmpty then [Ascii.nul] else arg.take 1)))
  else if is "di" then
    let (n, o) := o.whole true
    some (o.add (c.signed n))
  else if is "ouxX" then
    let (n, o) := o.whole false
    some (o.add (c.unsigned (if is "o" then 8 else if is "u" then 10 else 16) n.toNat))
  else if is "aAeEfFgG" then
    let (x, o) := o.double
    some (o.add (c.double x))
  else none

/-- One pass over the format. -/
def pass : Nat → Bytes → Output → Output
  | 0, _, o => o
  | fuel + 1, s, o =>
    match s with
    | [] => o
    | b :: rest =>
      if b == Ascii.backslash then
        let (text, after) := escaped rest
        pass fuel after (o.add text)
      else if b == Ascii.percent then
        if rest.head? = some Ascii.percent then pass fuel rest.tail (o.add [b])
        else
          let (c, after, o) := conversion rest o
          match convert c o with
          | none => { o with bad := some (if c.letter = 0 then [] else s.take (s.length - after.length)) }
          | some o => if o.stops then o else pass fuel after o
      else
        let plain := s.takeWhile fun b => b != Ascii.backslash && b != Ascii.percent
        pass fuel (s.drop plain.length) (o.add plain)

/-- Passes over the format while arguments are left. -/
def passes (format : Bytes) : Nat → Output → Output
  | 0, o => o
  | fuel + 1, o =>
    let o := pass (format.length + 1) format { o with used := false }
    if o.args.isEmpty || !o.used || o.stops || o.bad.isSome then o else passes format fuel o

/-- The output of a format with its arguments. -/
def print (format : Bytes) (args : List Bytes) : Output := passes format (args.length + 1) { args }

end Stopwatch.Host.Printf
