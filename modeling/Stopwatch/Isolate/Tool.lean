import Stopwatch.Host.Launch
import Stopwatch.Isolate.Executor

/-!
How the sandbox tool starts: its name is resolved first, then a caller that has given up is noticed, and then the file
itself is started. Words that hold a NUL octet cannot be handed to it.
-/

namespace Stopwatch.Isolate

/-- The path at which the tool starts, or the trouble of starting it. `start` tells what the system says to a path. -/
def toolStart (search : Bytes → Option Bytes) (start : Bytes → Option Host.Refusal) (cancelled : Bool)
    (tool : Bytes) : Except Bytes Bytes :=
  match Host.resolve search tool with
  | .error e => .error e.message
  | .ok path =>
    if cancelled then .error canceledText
    else
      match start path with
      | some reason => .error (Host.StartError.refused path reason).message
      | none => .ok path

/-- Whether the words of a request can be handed to a program. -/
def passable (req : RunRequest) : Bool := (req.workDir :: req.words).all fun word => !word.contains Ascii.nul

/-- The behaviour towards a request of a tool that starts, or does not. The words for making and removing a box can
always be handed over, those of a run hold words of the request. -/
def Behaviour.withTool (b : Behaviour) (start : Except Bytes Bytes) (req : RunRequest) : Behaviour :=
  match start with
  | .error cause => { b with make := .notStarted cause }
  | .ok path =>
    if passable req then b
    else { b with run := .notStarted (Host.StartError.refused path .badArgument).message }

end Stopwatch.Isolate
