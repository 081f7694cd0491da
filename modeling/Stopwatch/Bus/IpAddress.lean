import Stopwatch.Text.Quoted

/-!
Numeric addresses of hosts: four numbers with dots between them, or eight groups of hexadecimal digits with colons
between them. Two colons stand for groups of zeros, the last two groups may be written as four numbers, and a zone may
follow behind a percent sign.
-/

namespace Stopwatch.Bus

inductive IpReason where
  | noAddress
  | zoneOnly
  | emptyZone
  | leadingZero
  | numberTooLarge
  | emptyNumber
  | tooManyNumbers
  | tooFewNumbers
  | strangeCharacter
  | longGroup
  | emptyGroup
  | misplacedNumbers
  | noRoomForNumbers
  | colonExpected
  | groupExpected
  | twoGaps
  | leftover
  | tooFewGroups
  | gapForNothing
  deriving DecidableEq, Repr

def IpReason.message : IpReason → Bytes
  | .noAddress => utf8 "unable to parse IP"
  | .zoneOnly => utf8 "missing IPv6 address"
  | .emptyZone => utf8 "zone must be a non-empty string"
  | .leadingZero => utf8 "IPv4 field has octet with leading zero"
  | .numberTooLarge => utf8 "IPv4 field has value >255"
  | .emptyNumber => utf8 "IPv4 field must have at least one digit"
  | .tooManyNumbers => utf8 "IPv4 address too long"
  | .tooFewNumbers => utf8 "IPv4 address too short"
  | .strangeCharacter => utf8 "unexpected character"
  | .longGroup => utf8 "each group must have 4 or less digits"
  | .emptyGroup => utf8 "each colon-separated field must have at least one digit"
  | .misplacedNumbers => utf8 "embedded IPv4 address must replace the final 2 fields of the address"
  | .noRoomForNumbers => utf8 "too many hex fields to fit an embedded IPv4 at the end of the address"
  | .colonExpected => utf8 "unexpected character, want colon"
  | .groupExpected => utf8 "colon must be followed by more characters"
  | .twoGaps => utf8 "multiple :: in address"
  | .leftover => utf8 "trailing garbage after address"
  | .tooFewGroups => utf8 "address string too short"
  | .gapForNothing => utf8 "the :: must expand to at least one field of zeros"

/-- What is wrong with an address, and the text from where it is wrong on, if that is told. -/
structure IpFlaw where
  reason : IpReason
  place : Bytes := []
  deriving DecidableEq, Repr

/-- The words about an address that is none. -/
def IpFlaw.message (address : Bytes) (f : IpFlaw) : Bytes :=
  utf8 "ParseAddr(" ++ quote address ++ utf8 "): " ++ f.reason.message
    ++ (if f.place.isEmpty then [] else utf8 " (at " ++ quote f.place ++ utf8 ")")

/-- The two forms of an address. -/
inductive IpForm where
  | numbers
  | groups
  deriving DecidableEq, Repr

namespace IpForm

/-- Checks numbers with dots between them: `dots` were read so far, and `value` is that of the digits since, if there
are any. -/
def checkNumbers : Bytes → Nat → Option Nat → Except IpFlaw Unit
  | [], dots, _ => if dots < 3 then .error { reason := .tooFewNumbers } else .ok ()
  | b :: rest, dots, value =>
    if Ascii.isDigit b then
      let n := value.getD 0 * 10 + (b.toNat - 0x30)
      if value = some 0 then .error { reason := .leadingZero }
      else if 255 < n then .error { reason := .numberTooLarge }
      else checkNumbers rest dots (some n)
    else if b == Ascii.dot then
      if value.isNone || rest.isEmpty then .error { reason := .emptyNumber, place := b :: rest }
      else if dots = 3 then .error { reason := .tooManyNumbers }
      else checkNumbers rest (dots + 1) none
    else .error { reason := .strangeCharacter, place := b :: rest }

/-- Checks the end of groups, of which so many were read. -/
def checkEnd (groups : Nat) (gap : Bool) (rest : Bytes) : Except IpFlaw Unit :=
  if !rest.isEmpty then .error { reason := .leftover, place := rest }
  else if groups < 8 then if gap then .ok () else .error { reason := .tooFewGroups }
  else if gap then .error { reason := .gapForNothing }
  else .ok ()

/-- Checks groups with colons between them: so many are left to be read, and `gap` tells whether two colons came. -/
def checkGroups : Nat → Bool → Bytes → Except IpFlaw Unit
  | 0, gap, s => checkEnd 8 gap s
  | left + 1, gap, s => do
    let digits := s.takeWhile Ascii.isHexDigit
    let rest := s.drop digits.length
    if 4 < digits.length then .error { reason := .longGroup, place := s }
    else if digits.isEmpty then .error { reason := .emptyGroup, place := s }
    else if rest.head? = some Ascii.dot then
      if !gap && left ≠ 1 then .error { reason := .misplacedNumbers, place := s }
      else if left = 0 then .error { reason := .noRoomForNumbers, place := s }
      else
        checkNumbers s 0 none
        checkEnd (9 - left) gap []
    else
      match rest with
      | [] => checkEnd (8 - left) gap []
      | b :: rest =>
        if b != Ascii.colon then .error { reason := .colonExpected, place := b :: rest }
        else
          match rest with
          | [] => .error { reason := .groupExpected, place := [b] }
          | Ascii.colon :: after =>
            if gap then .error { reason := .twoGaps, place := rest }
            else if after.isEmpty then checkEnd (8 - left) true []
            else checkGroups left true after
          | _ => checkGroups left gap rest

/-- Checks groups, which may have a zone. -/
def checkZoned (s : Bytes) : Except IpFlaw Unit :=
  let groups (s : Bytes) : Except IpFlaw Unit :=
    match s with
    | [Ascii.colon, Ascii.colon] => .ok ()
    | Ascii.colon :: Ascii.colon :: rest => checkGroups 8 true rest
    | s => checkGroups 8 false s
  match Bytes.cut Ascii.percent s with
  | some (_, []) => .error { reason := .emptyZone }
  | some (s, _) => groups s
  | none => groups s

/-- The form of an address. The first dot, colon or percent sign tells which it is meant to be. -/
def read (s : Bytes) : Except IpFlaw IpForm :=
  match s.find? fun b => b == Ascii.dot || b == Ascii.colon || b == Ascii.percent with
  | none => .error { reason := .noAddress }
  | some b =>
    if b == Ascii.dot then do
      checkNumbers s 0 none
      .ok .numbers
    else if b == Ascii.colon then do
      checkZoned s
      .ok .groups
    else .error { reason := .zoneOnly }

end IpForm

end Stopwatch.Bus
