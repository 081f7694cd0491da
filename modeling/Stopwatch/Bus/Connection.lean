import Stopwatch.Bus.Subject
import Stopwatch.Wire.Message

/-!
A connection to the bus and what goes over it: results and reports that are published, subscriptions, and requests that
wait for an answer.
-/

namespace Stopwatch.Bus

inductive Error where
  | invalidSubject
  | invalidQueue
  | closed
  | payloadTooLarge
  | noResponders
  | timeout
  | unsupported (u : Wire.Unsupported)
  deriving DecidableEq, Repr

def Error.message : Error → Bytes
  | .invalidSubject => utf8 "nats: invalid subject"
  | .invalidQueue => utf8 "nats: invalid queue name"
  | .closed => utf8 "nats: connection closed"
  | .payloadTooLarge => utf8 "nats: maximum payload exceeded"
  | .noResponders => utf8 "nats: no responders available for request"
  | .timeout => utf8 "nats: timeout"
  | .unsupported u => u.message

/-- A message on its way. -/
structure Message where
  subject : Bytes
  payload : Bytes
  deriving DecidableEq, Repr

/-- A connection. The server tells the largest payload; a connection that has never reached one knows none. -/
structure Connection where
  closed : Bool := false
  maxPayload : Option Nat := some 1048576
  deriving DecidableEq, Repr

namespace Connection

/-- Hands a payload over. -/
def send (c : Connection) (subject payload : Bytes) : Except Error Message :=
  if subject.isEmpty then .error .invalidSubject
  else if c.closed then .error .closed
  else if c.maxPayload.any (· < payload.length) then .error .payloadTooLarge
  else .ok { subject, payload }

/-- Whether a subscription is accepted. -/
def subscribe (c : Connection) (subject queue : Bytes) : Except Error Unit :=
  if !isSubject subject then .error .invalidSubject
  else if !isQueue queue then .error .invalidQueue
  else if c.closed then .error .closed
  else .ok ()

end Connection

/-- An attempt to publish: the message or what went wrong, and the line about it. -/
structure Posting where
  outcome : Except Error Message
  log : Bytes

/-- The message of what went wrong. -/
def Posting.failure? (p : Posting) : Option Bytes :=
  match p.outcome with
  | .ok _ => none
  | .error e => some e.message

/-- Encodes and sends. The lines are for trouble with the encoding, trouble with the bus, and success. -/
def post (c : Connection) (subject : Bytes) (encoded : Except Wire.Unsupported Bytes)
    (unencoded unsent : Error → Bytes) (sent : Bytes) : Posting :=
  match encoded with
  | .error u => { outcome := .error (.unsupported u), log := Bytes.logLine (unencoded (.unsupported u)) }
  | .ok payload =>
    match c.send subject payload with
    | .error e => { outcome := .error e, log := Bytes.logLine (unsent e) }
    | .ok m => { outcome := .ok m, log := Bytes.logLine sent }

/-- Publishes the result of a program. -/
def publishResult (c : Connection) (subject : Bytes) (r : Result) : Posting :=
  post c subject r.encode
    (fun e => utf8 "Error marshalling program result: " ++ e.message)
    (fun e => utf8 "Error publishing program result to NATS: " ++ e.message)
    (utf8 "Published result for RequestID: " ++ r.requestId ++ utf8 ", Program: " ++ r.program
      ++ utf8 " to NATS topic " ++ subject)

/-- Answers a request with its report. -/
def respond (c : Connection) (reply : Bytes) (r : Report) : Posting :=
  post c reply r.encode
    (fun e => utf8 "Error marshalling report: " ++ e.message)
    (fun e => utf8 "Error publishing report to " ++ reply ++ utf8 ": " ++ e.message)
    (utf8 "Sent report for RequestID: " ++ r.requestId ++ utf8 " to " ++ reply)

/-- The line about a refused subscription. -/
def refusedLine (subject : Bytes) (e : Error) : Bytes :=
  Bytes.logLine (utf8 "Error subscribing to NATS subject " ++ subject ++ utf8 ": " ++ e.message)

/-- A message as a subscriber gets it. -/
structure Delivery where
  payload : Bytes
  reply : Bytes := []
  deriving DecidableEq, Repr

/-- The request that a subscriber passes on, none if the payload holds none. -/
def Delivery.request? (d : Delivery) : Option (Request × Bytes) :=
  (Request.decode d.payload).map fun r => (r, d.reply)

/-- The requests that a subscriber passes on, in order. -/
def passedOn (ds : List Delivery) : List (Request × Bytes) := ds.filterMap Delivery.request?

/-! ### Requests -/

/-- Why a request brought no report. -/
inductive SubmitError where
  | failed (id subject : Bytes) (e : Error)
  | undecodable (id : Bytes)
  deriving DecidableEq, Repr

/-- The words about a request that failed. For an answer that holds no report the words of the decoder would follow. -/
def SubmitError.message : SubmitError → Bytes
  | .failed id subject e => utf8 "request " ++ id ++ utf8 " on " ++ subject ++ utf8 ": " ++ e.message
  | .undecodable id => utf8 "decode report for " ++ id

/-- Who is on the other side of a request: gives the answer, or why there is none. -/
abbrev Peer (ν : Type) := ν → Message → Except Error Bytes × ν

/-- Sends a request, waits for the answer and reads the report in it. Without patience, in nanoseconds, every answer
comes too late. -/
def submit {ν : Type} (c : Connection) (peer : Peer ν) (subject : Bytes) (req : Request) (patience : Int64) (net : ν) :
    Except SubmitError Report × ν :=
  match c.send subject req.encode with
  | .error e => (.error (.failed req.id subject e), net)
  | .ok m =>
    let (answer, net) := peer net m
    let answer := if 0 < patience then answer else .error .timeout
    match answer with
    | .error e => (.error (.failed req.id subject e), net)
    | .ok answer =>
      match Report.decode answer with
      | none => (.error (.undecodable req.id), net)
      | some report => (.ok report, net)

end Stopwatch.Bus
