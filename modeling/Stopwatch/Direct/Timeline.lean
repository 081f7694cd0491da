import Stopwatch.Text.Bytes

/-!
The life of a process as its parent can see it: when and how it ends, what it writes and when, how long its output stays
open, and how much memory it uses. Moments are nanoseconds since the start.
-/

namespace Stopwatch.Direct

/-- How a process ended. -/
inductive Ending where
  | exited (code : Nat)
  | signaled (signal : Nat)
  deriving DecidableEq, Repr

/-- The two outputs of a process. -/
inductive Channel where
  | out
  | err
  deriving DecidableEq, Repr

/-- Something written to an output at a moment. -/
structure Write where
  moment : Nat
  channel : Channel
  text : Bytes
  deriving DecidableEq, Repr

/-- The life of a process. An absent end lies beyond all limits. -/
structure Timeline where
  /-- The end of the process itself. -/
  exit : Option (Nat × Ending)
  /-- The moment from which nobody holds the outputs open. -/
  closed : Option Nat
  writes : List Write := []
  /-- Octets from a moment on, earlier moments first. -/
  memory : List (Nat × UInt64) := []
  /-- Whether the process has left its group, so that killing the group does not end it. -/
  apart : Bool := false

/-- What was written to an output up to a moment. -/
def Timeline.written (t : Timeline) (channel : Channel) (until? : Option Nat) : Bytes :=
  (t.writes.filter fun w => w.channel = channel && until?.all (w.moment ≤ ·)).flatMap Write.text

/-- The interval at which memory is looked at. -/
def pollInterval : Nat := 20000000

/-- The first look at or after a moment; the first of all comes after one interval. -/
def pollAt (moment : Nat) : Nat := max 1 ((moment + pollInterval - 1) / pollInterval) * pollInterval

/-- The looks that show something, with what they show: the first one in each stretch of constant memory, before a
moment. -/
def looks (before : Option Nat) : List (Nat × UInt64) → List (Nat × UInt64)
  | [] => []
  | (start, rss) :: rest =>
    let poll := pollAt start
    let later := looks before rest
    if rest.head?.all (fun next => poll < next.1) && before.all (poll < ·) then (poll, rss) :: later else later

/-- Whether octets are too many for a limit in kilobytes; a limit that is not above zero is none. -/
def exceeds (limitKb : Int64) (rss : UInt64) : Bool := 0 < limitKb && limitKb.toInt < (rss.toNat / 1024 : Nat)

/-- The first look that shows more memory than a limit, before the process ends, with what it shows. -/
def Timeline.firstOver (t : Timeline) (limitKb : Int64) : Option (Nat × UInt64) :=
  (looks (t.exit.map Prod.fst) t.memory).find? fun look => exceeds limitKb look.2

def Timeline.firstExcess (t : Timeline) (limitKb : Int64) : Option Nat := (t.firstOver limitKb).map Prod.fst

/-- What the looks up to a moment show that is within a limit. -/
def Timeline.readings (t : Timeline) (limitKb : Int64) (upTo : Option Nat) : List UInt64 :=
  ((looks (t.exit.map Prod.fst) t.memory).filter fun look =>
    upTo.all (look.1 ≤ ·) && !exceeds limitKb look.2).map Prod.snd

end Stopwatch.Direct
