import Stopwatch.Text.Quoted

/-!
Starting a command on the host. A name without a slash is looked up in the search path; only then is the file started,
and each of the two steps has its own refusals.
-/

namespace Stopwatch.Host

/-- Why the system refused to start a file. -/
inductive Refusal where
  | missing
  | denied
  | notDirectory
  | badArgument
  | badFormat
  deriving DecidableEq, Repr

def Refusal.text : Refusal → Bytes
  | .missing => utf8 "no such file or directory"
  | .denied => utf8 "permission denied"
  | .notDirectory => utf8 "not a directory"
  | .badArgument => utf8 "invalid argument"
  | .badFormat => utf8 "exec format error"

/-- Why a command could not be started. -/
inductive StartError where
  | noCommand
  | notInPath (name : Bytes)
  | isDirectory (name : Bytes)
  | refused (path : Bytes) (reason : Refusal)
  deriving DecidableEq, Repr

def StartError.message : StartError → Bytes
  | .noCommand => utf8 "exec: no command"
  | .notInPath name => utf8 "exec: " ++ quote name ++ utf8 ": executable file not found in $PATH"
  | .isDirectory name => utf8 "exec: " ++ quote name ++ utf8 ": is a directory"
  | .refused path reason => utf8 "fork/exec " ++ path ++ utf8 ": " ++ reason.text

/-- The path that a command name stands for. `search` looks a plain name up. -/
def resolve (search : Bytes → Option Bytes) (name : Bytes) : Except StartError Bytes :=
  if name.isEmpty then .error .noCommand
  else if name == utf8 "/" then .error (.isDirectory name)
  else if name.contains Ascii.slash then .ok name
  else
    match search name with
    | some path => .ok path
    | none => .error (.notInPath name)

end Stopwatch.Host
