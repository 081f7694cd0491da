import Stopwatch.Wire.Incoming
import Stopwatch.Wire.Outgoing
import Stopwatch.Wire.Reader

/-!
Messages: the octets of a request, a result or a report, and what such octets hold.
-/

namespace Stopwatch

/-- The message of a request. -/
def Request.encode (r : Request) : Bytes := (Wire.ofRequest r).render

/-- The request in a message, none if the message does not hold one. -/
def Request.decode (s : Bytes) : Option Request := do
  let v ← Wire.Value.parse s
  let draft ← Wire.tableOver Wire.RequestDraft.entry {} v
  some draft.done

def Result.encode (r : Result) : Except Wire.Unsupported Bytes := (Wire.ofResult r).map Wire.Value.render

def Report.encode (r : Report) : Except Wire.Unsupported Bytes := (Wire.ofReport r).map Wire.Value.render

/-- The report in a message, none if the message does not hold one. -/
def Report.decode (s : Bytes) : Option Report := do
  let v ← Wire.Value.parse s
  let draft ← Wire.tableOver Wire.ReportDraft.entry {} v
  some draft.done

end Stopwatch
