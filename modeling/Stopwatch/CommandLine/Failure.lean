import Stopwatch.Bus.Address
import Stopwatch.Bus.Connection
import Stopwatch.CommandLine.Dispatch
import Stopwatch.Settings.Load

/-!
Why a command fails, and the words for it.
-/

namespace Stopwatch.CommandLine

inductive Failure where
  | flags (e : Flags.Error)
  | unknownCommand (name : Bytes)
  | settings (e : Settings.LoadError)
  | unknownProgram (name : Bytes)
  | address (e : Bus.AddressError)
  | subscription (subject : Bytes) (e : Bus.Error)
  | request (e : Bus.SubmitError)
  /-- The report could not be written. -/
  | output (text : Bytes)
  /-- The report is there, but not all programs of it succeeded. -/
  | programs

/-- The words about settings that could not be loaded. Of a file that holds no table nothing is told here. -/
def loadMessage : Settings.LoadError → Bytes
  | .badFile => utf8 "While parsing config"
  | .badValues errors => Settings.decodeMessage errors

def Failure.message : Failure → Bytes
  | .flags e => e.message
  | .unknownCommand name => unknownCommandMessage name
  | .settings e => utf8 "load configuration: " ++ loadMessage e
  | .unknownProgram name => Selection.unknownMessage name
  | .address e => utf8 "connect to NATS: " ++ e.message
  | .subscription subject e => utf8 "subscribe to " ++ subject ++ utf8 ": " ++ e.message
  | .request e => e.message
  | .output text => text
  | .programs => utf8 "one or more programs failed"

/-- The status with which the program ends. -/
def exitCode : Option Failure → Nat
  | none => 0
  | some _ => 1

/-- The last line of the log, if a command failed. -/
def lastLine (f : Failure) : Bytes := utf8 "bench: " ++ f.message

end Stopwatch.CommandLine
