import Stopwatch.Host.Call

/-!
Octets in other notations: dumps in columns, and text in base sixty-four.
-/

namespace Stopwatch.Host

namespace Dump

/-- How units of octets are written. -/
structure Layout where
  /-- The octets of a unit. -/
  unit : Nat
  /-- The columns that a unit takes. -/
  width : Nat
  text : Nat → Bytes

/-- A numeral in a base of at most sixteen, filled with zeros. -/
def numeral (base width n : Nat) : Bytes :=
  let rec go : Nat → Nat → Bytes → Bytes
    | 0, _, acc => acc
    | fuel + 1, n, acc => go fuel (n / base) (Ascii.hexDigit (n % base) :: acc)
  go width n []

def signedText (unit n : Nat) : Bytes :=
  let limit := Nat.pow 256 unit
  Integer.ofInt (if limit / 2 ≤ n then (n : Int) - limit else n)

/-- An octet as a letter or an escape. -/
def letter (n : Nat) : Bytes :=
  match [(0, "\\0"), (7, "\\a"), (8, "\\b"), (9, "\\t"), (10, "\\n"), (11, "\\v"), (12, "\\f"), (13, "\\r")].lookup n with
  | some text => utf8 text
  | none => if 0x20 ≤ n && n < 0x7f then [n.toUInt8] else numeral 8 3 n

/-- The layout of a kind of number by its letter and size. -/
def layout (kind : UInt8) (unit : Nat) : Option Layout :=
  let digits (base : Nat) : Nat := (List.range 30).findIdx fun d => Nat.pow 256 unit ≤ Nat.pow base d
  if kind == 0x63 then some { unit := 1, width := 4, text := letter }
  else if kind == 0x78 then some { unit, width := 2 * unit + 1, text := numeral 16 (2 * unit) }
  else if kind == 0x6f then some { unit, width := digits 8 + 1, text := numeral 8 (digits 8) }
  else if kind == 0x64 then some { unit, width := digits 10 + 2, text := signedText unit }
  else if kind == 0x75 then some { unit, width := digits 10 + 1, text := Integer.ofNat }
  else none

/-- The layout that the options ask for. -/
def layoutOf (g : Given) : Option Layout :=
  match g.options.reverse.find? fun o => "cbxodt".toList.contains o.1 with
  | none => layout 0x6f 2
  | some ('c', _) => layout 0x63 1
  | some ('b', _) => layout 0x6f 1
  | some ('x', _) => layout 0x78 2
  | some ('o', _) => layout 0x6f 2
  | some ('d', _) => layout 0x75 2
  | some (_, text) =>
    match text with
    | kind :: size =>
      let size := if size == utf8 "C" then utf8 "1" else if size == utf8 "S" then utf8 "2" else size
      match (if size.isEmpty then some (if kind == 0x63 then 1 else 4) else naturalOf size) with
      | some n => if [1, 2, 4, 8].contains n then layout kind n else none
      | none => none
    | [] => none

/-- The units of a row, the lowest octet of each first. -/
def units (l : Layout) : Nat → Bytes → List Bytes
  | 0, _ => []
  | fuel + 1, s =>
    if s.isEmpty then []
    else
      let value := (s.take l.unit).reverse.foldl (fun n b => n * 256 + b.toNat) 0
      Bytes.padLeft l.width (l.text value) :: units l fuel (s.drop l.unit)

/-- The rows of a dump; a row that repeats the one before is shown once as a star. -/
def rows (l : Layout) (address : Nat → Bytes) (width : Nat) (all : Bool) :
    Nat → Nat → Option Bytes → Bool → Bytes → List Bytes
  | 0, _, _, _, _ => []
  | fuel + 1, offset, before, starred, s =>
    if s.isEmpty then []
    else
      let row := s.take width
      let next := s.drop width
      if !all && before = some row && row.length = width then
        (if starred then [] else [utf8 "*"]) ++ rows l address width all fuel (offset + width) before true next
      else
        (address offset ++ (units l (width + 1) row).flatten)
          :: rows l address width all fuel (offset + row.length) (some row) false next

def options : Options :=
  { flags := "cbxodv", valued := "AtNjw"
    long := [("address-radix", 'A'), ("format", 't'), ("read-bytes", 'N'), ("skip-bytes", 'j'), ("width", 'w'),
      ("output-duplicates", 'v')] }

def tool (c : Call) : Effect :=
  c.withOptions "od" 1 options fun g =>
    match layoutOf g with
    | none => .fail 1 (utf8 "od: invalid type string " ++ quoted ((g.value? 't').getD []))
    | some l =>
      let (data, err, reads) := c.readAll (utf8 "od") g.words
      let number (letter : Char) : Option Nat := (g.value? letter).bind naturalOf
      let data := match number 'N' with
        | some n => data.take (n + (number 'j').getD 0)
        | none => data
      let text := data.bytes.drop ((number 'j').getD 0)
      let radix := (g.value? 'A').getD (utf8 "o")
      let address (n : Nat) : Bytes :=
        if radix == utf8 "n" then [] else if radix == utf8 "d" then
          let digits := Integer.ofNat n
          List.replicate (7 - digits.length) Ascii.zero ++ digits
        else if radix == utf8 "x" then numeral 16 6 n else numeral 8 7 n
      let start := (number 'j').getD 0
      let lines := rows l address ((number 'w').getD 16) (g.has 'v') (text.length + 1) start none false text
      let last := address (start + text.length)
      { out := Data.ofBytes (unlines (lines ++ (if last.isEmpty then [] else [last]))), err
        status := if err.isEmpty then 0 else 1, reads }

end Dump

namespace Base64

def alphabet : Bytes := utf8 "ABCDEFGHIJKLMNOPQRSTUVWXYZabcdefghijklmnopqrstuvwxyz0123456789+/"

/-- Three octets become four letters. -/
def encode : Bytes → Bytes
  | a :: b :: c :: rest =>
    let n := a.toNat * 65536 + b.toNat * 256 + c.toNat
    [n / 262144, n / 4096 % 64, n / 64 % 64, n % 64].map (fun i => alphabet[i]?.getD 0) ++ encode rest
  | [a, b] =>
    let n := a.toNat * 65536 + b.toNat * 256
    [n / 262144, n / 4096 % 64, n / 64 % 64].map (fun i => alphabet[i]?.getD 0) ++ [Ascii.equals]
  | [a] =>
    let n := a.toNat * 65536
    [n / 262144, n / 4096 % 64].map (fun i => alphabet[i]?.getD 0) ++ [Ascii.equals, Ascii.equals]
  | [] => []

/-- Four letters become three octets; what cannot be read ends the text, and the second value says so. -/
def decode : Bytes → Bytes × Bool
  | a :: b :: c :: d :: rest =>
    match alphabet.idxOf? a, alphabet.idxOf? b, alphabet.idxOf? c, alphabet.idxOf? d with
    | some w, some x, some y, some z =>
      let n := w * 262144 + x * 4096 + y * 64 + z
      let (more, ok) := decode rest
      ([n / 65536, n / 256 % 256, n % 256].map (fun i => i.toUInt8) ++ more, ok)
    | some w, some x, some y, none =>
      let n := w * 262144 + x * 4096 + y * 64
      ([n / 65536, n / 256 % 256].map (fun i => i.toUInt8), d == Ascii.equals && rest.isEmpty)
    | some w, some x, none, none =>
      ([((w * 262144 + x * 4096) / 65536).toUInt8], c == Ascii.equals && d == Ascii.equals && rest.isEmpty)
    | _, _, _, _ => ([], false)
  | [] => ([], true)
  | _ => ([], false)

def tool (c : Call) : Effect :=
  let o : Options := { flags := "di", valued := "w", long := [("decode", 'd'), ("ignore-garbage", 'i'), ("wrap", 'w')] }
  c.withOptions "base64" 1 o fun g =>
    let path := g.words.head?.getD (utf8 "-")
    match c.open? path with
    | .error text => .fail 1 (utf8 "base64: " ++ path ++ utf8 ": " ++ text)
    | .ok data =>
      let reads := path == utf8 "-"
      if g.has 'd' then
        let letters := data.bytes.filter fun b =>
          b != Ascii.newline && (!g.has 'i' || alphabet.contains b || b == Ascii.equals)
        let (text, ok) := decode letters
        { out := Data.ofBytes text, err := if ok then [] else utf8 "base64: invalid input\n"
          status := if ok then 0 else 1, reads }
      else
        let text := encode data.bytes
        let width := ((g.value? 'w').bind naturalOf).getD 76
        let lines := if width = 0 then [text] else (List.range ((text.length + width - 1) / width)).map fun i =>
          (text.drop (i * width)).take width
        { out := Data.ofBytes (if width = 0 then text else unlines lines), reads }

end Base64

end Stopwatch.Host
