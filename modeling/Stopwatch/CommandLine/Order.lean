import Stopwatch.CommandLine.Service

/-!
Command lines from end to end: the command and its flags are found first, then the command is carried out.
-/

namespace Stopwatch.CommandLine

/-- A bus on which nothing listens: messages are kept, and no answer comes. -/
def silentPeer : Bus.Peer Unit := fun _ _ => (.error .timeout, ())

/-- What a command line stands for, once its flags are read. -/
inductive Order where
  | command (c : Command) (p : Flags.Parsed)
  /-- A text about the commands. -/
  | guidance
  deriving DecidableEq, Repr

def order (args : List Bytes) : Except Failure Order :=
  match target args with
  | .unknown name => .error (.unknownCommand name)
  | .guidance => .ok .guidance
  | .bare =>
    match Flags.parse (commonFlags ++ [helpFlag]) args with
    | .error e => .error (.flags e)
    | .ok _ => .ok .guidance
  | .command c rest =>
    match Flags.parse (c.flags ++ [helpFlag]) rest with
    | .error e => .error (.flags e)
    | .ok p => if p.get? helpFlag.name = some (.truth true) then .ok .guidance else .ok (.command c p)

/-- Carries out a command line on its own, with nobody else on the bus. A service ends as soon as it listens. -/
def execute {σ : Type} (c : Console σ) (args : List Bytes) : Answer :=
  match order args with
  | .error f => .failed f
  | .ok .guidance => {}
  | .ok (.command .run p) => run c p
  | .ok (.command .submit p) => (submit c silentPeer p ()).1
  | .ok (.command .serve p) =>
    match serve c p with
    | .error f => .failed f
    | .ok _ => {}

end Stopwatch.CommandLine
