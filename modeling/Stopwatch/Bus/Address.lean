import Stopwatch.Bus.IpAddress
import Stopwatch.Text.Blank
import Stopwatch.Text.Quoted

/-!
Addresses of bus servers. A list of addresses is split at commas; each one must be a well-formed URL, and one without a
scheme gets the usual one of the list.
-/

namespace Stopwatch.Bus

/-- What is wrong with an address. -/
inductive AddressFlaw where
  | controlCharacter
  | missingScheme
  | colonInFirstSegment
  | unclosedBracket
  | badPort (text : Bytes)
  | badEscape (text : Bytes)
  | badHostCharacter (b : UInt8)
  | badUserInfo
  | badLiteral
  | badIpAddress (address : Bytes) (flaw : IpFlaw)
  deriving DecidableEq, Repr

def AddressFlaw.message : AddressFlaw → Bytes
  | .controlCharacter => utf8 "net/url: invalid control character in URL"
  | .missingScheme => utf8 "missing protocol scheme"
  | .colonInFirstSegment => utf8 "first path segment in URL cannot contain colon"
  | .unclosedBracket => utf8 "missing ']' in host"
  | .badPort text => utf8 "invalid port " ++ quote text ++ utf8 " after host"
  | .badEscape text => utf8 "invalid URL escape " ++ quote text
  | .badHostCharacter b => utf8 "invalid character " ++ quote [b] ++ utf8 " in host name"
  | .badUserInfo => utf8 "net/url: invalid userinfo"
  | .badLiteral => utf8 "invalid IP-literal"
  | .badIpAddress address flaw => utf8 "invalid host: " ++ flaw.message address

/-- Why a list of addresses cannot be used. -/
inductive AddressError where
  | flawed (address : Bytes) (flaw : AddressFlaw)
  | mixedTransports
  deriving DecidableEq, Repr

def AddressError.message : AddressError → Bytes
  | .flawed address flaw => utf8 "parse " ++ quote address ++ utf8 ": " ++ flaw.message
  | .mixedTransports => utf8 "mixing of websocket and non websocket URLs is not allowed"

namespace Address

/-- The octets that may stand in a host besides letters and digits. -/
def isHostOctet (b : UInt8) : Bool :=
  Ascii.isLetter b || Ascii.isDigit b || (utf8 "!$&'()*+,;=:[]<>\"-_.~").contains b

/-- Which escapes and octets a part of an address allows. -/
inductive Part where
  | host
  | zone
  | other
  deriving DecidableEq

def hexValue (b : UInt8) : Nat := (Ascii.digitValue? b).getD 0

/-- The flaw of an escape in a part, if it has one. -/
def escapeFlaw? (part : Part) (a b : UInt8) : Option AddressFlaw :=
  let text := [Ascii.percent, a, b]
  let isPercent := a == 0x32 && b == 0x35
  match part with
  | .other => none
  | .host => if hexValue a < 8 && !isPercent then some (.badEscape text) else none
  | .zone =>
    let v := (hexValue a * 16 + hexValue b).toUInt8
    if isPercent || v == Ascii.space || isHostOctet v then none else some (.badEscape text)

/-- The text of a part with its escapes resolved, onto the octets before in reverse. -/
def unescape (part : Part) : Bytes → Bytes → Except AddressFlaw Bytes
  | [], seen => .ok seen.reverse
  | b :: rest, seen =>
    if b == Ascii.percent then
      match rest with
      | x :: y :: after =>
        if Ascii.isHexDigit x && Ascii.isHexDigit y then
          match escapeFlaw? part x y with
          | some flaw => .error flaw
          | none => unescape part after ((hexValue x * 16 + hexValue y).toUInt8 :: seen)
        else .error (.badEscape (b :: rest.take 2))
      | _ => .error (.badEscape (b :: rest.take 2))
    else if part ≠ .other && b < 0x80 && !isHostOctet b then .error (.badHostCharacter b)
    else unescape part rest (b :: seen)

/-- Whether a text is empty or a colon with digits. -/
def isOptionalPort : Bytes → Bool
  | [] => true
  | b :: digits => b == Ascii.colon && digits.all Ascii.isDigit

/-- The two sides of the last occurrence of an octet, which goes to the second. -/
def splitLast (sep : UInt8) (s : Bytes) : Option (Bytes × Bytes) :=
  (Bytes.cutLast sep s).map fun (before, after) => (before, sep :: after)

/-- Where a text first occurs in another, as the two sides, of which the second begins with it. -/
def splitAtFirst (mark : Bytes) : Bytes → Bytes → Option (Bytes × Bytes)
  | [], _ => none
  | b :: rest, seen =>
    if Bytes.startsWith mark (b :: rest) then some (seen.reverse, b :: rest) else splitAtFirst mark rest (b :: seen)

/-- The text in brackets, with a zone behind an escaped percent sign. -/
def bracketed (s : Bytes) : Except AddressFlaw Bytes :=
  match splitAtFirst (utf8 "%25") s [] with
  | none => unescape .host s []
  | some (front, zone) => do
    let front ← unescape .host front []
    let zone ← unescape .zone zone []
    .ok (front ++ zone)

/-- A host with its port. Only an address in groups stands in brackets. -/
def host (s : Bytes) : Except AddressFlaw Bytes :=
  match splitLast Ascii.openBracket s with
  | some (_ :: _, _) => .error .badLiteral
  | some ([], _) =>
    match splitLast Ascii.closeBracket s with
    | none => .error .unclosedBracket
    | some (inner, closing) =>
      if !isOptionalPort closing.tail then .error (.badPort closing.tail)
      else do
        let port ← unescape .host closing.tail []
        let name ← bracketed (inner.drop 1)
        match IpForm.read name with
        | .error flaw => .error (.badIpAddress name flaw)
        | .ok .numbers => .error .badLiteral
        | .ok .groups => .ok (utf8 "[" ++ name ++ utf8 "]" ++ port)
  | none =>
    match splitLast Ascii.colon s with
    | some (_, port) => if isOptionalPort port then unescape .host s [] else .error (.badPort port)
    | none => unescape .host s []

def isUserOctet (b : UInt8) : Bool :=
  Ascii.isLetter b || Ascii.isDigit b || (utf8 "-._:~!$&'()*+,;=%@").contains b

/-- The host of an authority, which may have a user in front. -/
def authority (s : Bytes) : Except AddressFlaw Bytes :=
  match Bytes.cutLast Ascii.at_ s with
  | none => host s
  | some (user, rest) => do
    let h ← host rest
    if !user.all isUserOctet then .error .badUserInfo
    else
      match Bytes.cut Ascii.colon user with
      | none => do
        let _ ← unescape .other user []
        .ok h
      | some (name, secret) => do
        let _ ← unescape .other name []
        let _ ← unescape .other secret []
        .ok h

/-- What an address says: its scheme and its host with the port. -/
structure Parsed where
  scheme : Bytes := []
  host : Bytes := []

/-- The scheme in front of an address and what follows, none if a colon stands first. -/
def scheme : Bytes → Bytes → Option (Bytes × Bytes)
  | [], seen => some ([], seen.reverse)
  | b :: rest, seen =>
    let all := seen.reverse ++ (b :: rest)
    if Ascii.isLetter b then scheme rest (b :: seen)
    else if Ascii.isDigit b || b == Ascii.plus || b == Ascii.minus || b == Ascii.dot then
      if seen.isEmpty then some ([], all) else scheme rest (b :: seen)
    else if b == Ascii.colon then if seen.isEmpty then none else some (seen.reverse, rest)
    else some ([], all)

/-- Reads an address that has no fragment. -/
def parseWhole (s : Bytes) : Except AddressFlaw Parsed :=
  if s.any fun b => b < 0x20 || b == Ascii.delete then .error .controlCharacter
  else if s == utf8 "*" then .ok {}
  else
    match scheme s [] with
    | none => .error .missingScheme
    | some (name, rest) =>
      let name := name.map Ascii.lower
      let rest := ((Bytes.cut Ascii.question rest).map Prod.fst).getD rest
      let rooted := rest.head? = some Ascii.slash
      if !rooted && !name.isEmpty then .ok { scheme := name }
      else if !rooted && (rest.takeWhile (· != Ascii.slash)).contains Ascii.colon then .error .colonInFirstSegment
      else if Bytes.startsWith (utf8 "//") rest && (!name.isEmpty || !Bytes.startsWith (utf8 "///") rest) then do
        let rest := rest.drop 2
        let host ← authority (rest.takeWhile (· != Ascii.slash))
        let _ ← unescape .other (rest.dropWhile (· != Ascii.slash)) []
        .ok { scheme := name, host }
      else do
        let _ ← unescape .other rest []
        .ok { scheme := name }

/-- Reads an address. A flaw names the address without its fragment, unless it lies there. -/
def parse (s : Bytes) : Except AddressError Parsed :=
  let (front, fragment) := (Bytes.cut Ascii.hash s).getD (s, [])
  match parseWhole front with
  | .error flaw => .error (.flawed front flaw)
  | .ok p =>
    match unescape .other fragment [] with
    | .error flaw => .error (.flawed s flaw)
    | .ok _ => .ok p

/-- Whether a host names a port. -/
def hasPort (h : Bytes) : Bool :=
  match splitLast Ascii.colon h with
  | some (_, port) => isOptionalPort port && 1 < port.length
  | none => false

/-- The port that a scheme stands for. -/
def defaultPort (scheme : Bytes) : Bytes :=
  if scheme == utf8 "ws" then utf8 "80" else if scheme == utf8 "wss" then utf8 "443" else utf8 "4222"

/-- The scheme of a server's address, which may be left out. An address without port is read once more with one. -/
def server (usual s : Bytes) : Except AddressError Bytes := do
  let s := if Bytes.includes (utf8 "://") s then s else usual ++ utf8 "://" ++ s
  let p ← parse s
  if hasPort p.host then .ok p.scheme
  else
    let s := if s.getLast? = some Ascii.colon then s else s ++ [Ascii.colon]
    let p ← parse (s ++ defaultPort p.scheme)
    .ok p.scheme

/-- Whether a scheme runs over a web socket. -/
def isWebSocket (scheme : Bytes) : Bool := scheme == utf8 "ws" || scheme == utf8 "wss"

/-- The addresses of a list: trimmed, without a slash at the end, empty ones dropped. -/
def ofList (s : Bytes) : List Bytes :=
  ((Bytes.split Ascii.comma s).map fun piece =>
    let piece := Bytes.trim piece
    if piece.getLast? = some Ascii.slash then piece.dropLast else piece).filter fun piece => !piece.isEmpty

/-- Checks addresses in order. The first one decides whether all run over web sockets. -/
def checkAll : List Bytes → Option Bool → Option AddressError
  | [], _ => none
  | s :: rest, overSocket =>
    match server (if overSocket = some true then utf8 "ws" else utf8 "nats") s with
    | .error e => some e
    | .ok scheme =>
      match overSocket with
      | none => checkAll rest (some (isWebSocket scheme))
      | some b => if isWebSocket scheme = b then checkAll rest (some b) else some .mixedTransports

end Address

/-- What keeps a list of addresses from being dialled. A server that does not answer is no reason. -/
def addressError? (addresses : Bytes) : Option AddressError := Address.checkAll (Address.ofList addresses) none

end Stopwatch.Bus
