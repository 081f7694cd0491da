import Stopwatch.Text.Utf8

/-!
The characters of a YAML text. A text is UTF-8, or UTF-16 if a byte order mark says so. It is taken in piece by piece,
and a piece that holds anything else than text is refused as a whole, once it is needed.
-/

namespace Stopwatch.Yaml

/-- Whether a character may stand in a text. -/
def isAllowed (c : Char) : Bool :=
  let n := c.toNat
  n = 0x09 || n = 0x0a || n = 0x0d || (0x20 ≤ n && n ≤ 0x7e) || n = 0x85 || (0xa0 ≤ n && n ≤ 0xd7ff)
    || (0xe000 ≤ n && n ≤ 0xfffd) || 0x10000 ≤ n

/-- The byte order mark. -/
def byteOrderMark : Char := '\ufeff'

/-- How octets stand for characters. -/
inductive Encoding where
  | utf8
  /-- Units of two octets, of which the low one may come first. -/
  | utf16 (lowFirst : Bool)
  deriving DecidableEq, Repr

/-- The encoding that the first octets of a text tell, with the text behind the mark that tells it. -/
def Encoding.detect : Bytes → Encoding × Bytes
  | 0xff :: 0xfe :: rest => (.utf16 true, rest)
  | 0xfe :: 0xff :: rest => (.utf16 false, rest)
  | 0xef :: 0xbb :: 0xbf :: rest => (.utf8, rest)
  | s => (.utf8, s)

/-- What stands first in a piece of text: a character, the beginning of one that goes on behind the piece, or no
text. -/
inductive Leading where
  | char (c : Char) (rest : Bytes)
  | unfinished
  | bad

/-- A character that was found, if it was. -/
def Leading.ofOption (c : Option Char) (rest : Bytes) : Leading :=
  match c with
  | some c => .char c rest
  | none => .bad

/-- The first character of UTF-8 octets; the first octet tells how many belong to it. -/
def leadingUtf8 : Bytes → Leading
  | [] => .unfinished
  | a :: s =>
    if a < 0x80 then .char (Char.ofNat a.toNat) s
    else if a < 0xc0 then .bad
    else if a < 0xe0 then
      match s with
      | b :: s => .ofOption (Utf8.two? a b) s
      | _ => .unfinished
    else if a < 0xf0 then
      match s with
      | b :: c :: s => .ofOption (Utf8.three? a b c) s
      | _ => .unfinished
    else if a < 0xf8 then
      match s with
      | b :: c :: d :: s => .ofOption (Utf8.four? a b c d) s
      | _ => .unfinished
    else .bad

/-- The first character of UTF-16 octets; units from 0xd800 on come in pairs. -/
def leadingUtf16 (lowFirst : Bool) (s : Bytes) : Leading :=
  let unit (a b : UInt8) : Nat := if lowFirst then b.toNat * 256 + a.toNat else a.toNat * 256 + b.toNat
  match s with
  | a :: b :: s =>
    let high := unit a b
    if 0xdc00 ≤ high && high < 0xe000 then .bad
    else if 0xd800 ≤ high && high < 0xdc00 then
      match s with
      | c :: d :: s =>
        let low := unit c d
        if 0xdc00 ≤ low && low < 0xe000 then
          .char (Char.ofNat (0x10000 + (high - 0xd800) * 0x400 + (low - 0xdc00))) s
        else .bad
      | _ => .unfinished
    else .char (Char.ofNat high) s
  | _ => .unfinished

def Encoding.leading : Encoding → Bytes → Leading
  | .utf8 => leadingUtf8
  | .utf16 lowFirst => leadingUtf16 lowFirst

/-- The characters of a piece in front of those read before, in reverse, and the octets of an unfinished one. None if
the piece holds anything else than text. The number bounds the characters. -/
def Encoding.readPiece (e : Encoding) : Nat → Bytes → List Char → Option (List Char × Bytes)
  | 0, s, seen => some (seen, s)
  | fuel + 1, s, seen =>
    match e.leading s with
    | .char c rest => if isAllowed c then readPiece e fuel rest (c :: seen) else none
    | .unfinished => some (seen, s)
    | .bad => none

/-- The octets of a piece. -/
def pieceLength : Nat := 512

/-- The characters of a text as far as they can be had. -/
structure Source where
  chars : List Char
  /-- Whether a piece that holds no text follows them. -/
  severed : Bool := false
  /-- How many of them came with the first piece. -/
  opening : Nat := 0

/-- Takes in pieces: `held` is left of the piece before, and the piece is filled up to the given length. The number
bounds the pieces. -/
def Encoding.readPieces (e : Encoding) : Nat → Nat → Bytes → Bytes → List Char → Source
  | 0, _, _, _, seen => { chars := seen.reverse }
  | fuel + 1, room, held, s, seen =>
    let piece := held ++ s.take (room - held.length)
    let later := s.drop (room - held.length)
    match e.readPiece (piece.length + 1) piece seen with
    | none => { chars := seen.reverse, severed := true }
    | some (seen, left) =>
      if later.isEmpty then { chars := seen.reverse, severed := !left.isEmpty }
      else readPieces e fuel pieceLength left later seen

/-- The characters of a text. The mark in front belongs to the first piece. -/
def Source.ofBytes (s : Bytes) : Source :=
  let (e, body) := Encoding.detect s
  let room := pieceLength - (s.length - body.length)
  let first := e.readPiece (room + 1) (body.take room) []
  { e.readPieces (body.length + 1) room [] body [] with
    opening := (first.map fun (seen, _) => seen.length).getD 0 }

end Stopwatch.Yaml
