import Stopwatch.Isolate.Arguments
import Stopwatch.Isolate.Meta

/-!
The sandbox executor. Each run gets a box of its own: the box is made, the command is run in it, and the box is removed
again whatever the run brought. What the sandbox tool and the file system do is given from outside.
-/

namespace Stopwatch.Isolate

/-- How an invocation of the sandbox tool ends. -/
inductive Ending where
  | exited (code : Nat)
  /-- A signal ended it, in the words for that. -/
  | signaled (text : Bytes)
  /-- It exited with 0, but the caller had given up by then: what the caller says is told instead. -/
  | overtaken (cause : Bytes)
  | notStarted (cause : Bytes)
  deriving DecidableEq, Repr

namespace Ending

/-- The trouble of an ending, none if all went well. -/
def trouble : Ending → Option Bytes
  | .exited 0 => none
  | .exited code => some (utf8 "exit status " ++ Integer.ofNat code)
  | .signaled text => some text
  | .overtaken cause => some cause
  | .notStarted cause => some cause

/-- Whether there was an invocation at all. -/
def started : Ending → Bool
  | .notStarted _ => false
  | _ => true

/-- Whether the tool has done what it was asked to do. -/
def fulfilled : Ending → Bool
  | .exited 0 | .overtaken _ => true
  | _ => false

end Ending

/-- What the tool is asked to do with a box. -/
inductive Errand where
  | make
  | run (request : RunRequest) (files : Files)
  | remove
  deriving DecidableEq, Repr

/-- A box, what the tool is asked to do with it, and how that ends. -/
structure Invocation where
  box : Bytes
  errand : Errand
  ending : Ending
  deriving DecidableEq, Repr

/-- The words that the tool is invoked with. -/
def Invocation.words (i : Invocation) : List Bytes :=
  match i.errand with
  | .make => makeWords i.box
  | .run request files => runWords i.box request files
  | .remove => removeWords i.box

/-- What the tool and the file system do during one call. -/
structure Behaviour where
  /-- Why the directory for the files could not be made. -/
  noTempDir : Option Bytes := none
  make : Ending := .exited 0
  run : Ending := .exited 0
  remove : Ending := .exited 0
  stdout : Option Bytes := none
  stderr : Option Bytes := none
  info : Option Bytes := none
  /-- Why the meta file could not be read to its end, `info` being what was read. -/
  infoTrouble : Option Bytes := none
  /-- Whether the caller gives up during the run. -/
  cancelsRun : Bool := false
  /-- What a caller says who has given up: that it was told to, or that its time is over. -/
  reason : Fault := .canceled

/-- The number of the last box that was taken. -/
abbrev Counter := UInt32

/-- The box that a counter stands for. -/
def boxId (counter : Counter) : Bytes := Integer.ofNat (counter.toNat % 1000)

/-- The files of a run inside a directory. -/
def Files.inside (dir : Bytes) : Files :=
  { out := dir ++ utf8 "/stdout", err := dir ++ utf8 "/stderr", info := dir ++ utf8 "/meta" }

/-- A fault while a box is made. -/
def startFault (text : String) (cause : Bytes) : Fault := .failed .start (utf8 text) (some cause)

/-- The contents of a meta file, or why there are none. A line that offends comes before the trouble of reading on. -/
def readInfo (text : Bytes) (trouble : Option Bytes) : Except Bytes Meta :=
  match Meta.parse text with
  | .error e => .error e.message
  | .ok info =>
    match trouble with
    | some cause => .error cause
    | none => .ok info

/-- What the files of a run say, once it is over. -/
def readRun (b : Behaviour) (req : RunRequest) : Except Fault Sample :=
  match b.info with
  | none => .error (.failed .wait (utf8 "isolate meta file missing") b.run.trouble)
  | some text =>
    match readInfo text b.infoTrouble with
    | .error cause => .error (.failed .wait (utf8 "failed to parse isolate meta file") (some cause))
    | .ok info =>
      if info.status == utf8 "XX" then
        .error (.failed .wait (utf8 "isolate internal error: " ++ info.note) none)
      else
        .ok { status := info.runStatus req.memoryLimitKb
              stdout := b.stdout.getD []
              stderr := b.stderr.getD []
              exitCode := info.exitCode
              timeMs := info.time * 1000
              memoryKb := info.cgMem }

/-- One call: its outcome, the counter after it, and the invocations of the tool that it asked the system for. -/
structure Call where
  outcome : Except Fault Sample
  counter : Counter
  attempts : List Invocation

/-- The invocations that the system started. -/
def Call.invocations (c : Call) : List Invocation := c.attempts.filter fun i => i.ending.started

/-- Runs a command in the next box, with its files in the directory `dir`. -/
def execute (b : Behaviour) (dir : Bytes) (counter : Counter) (req : RunRequest) : Call :=
  if req.words.isEmpty then ⟨.error .emptyCommand, counter, []⟩
  else
    let counter := counter + 1
    let box := boxId counter
    match b.noTempDir with
    | some cause => ⟨.error (startFault "failed to create temp dir" cause), counter, []⟩
    | none =>
      match b.make.trouble with
      | some cause => ⟨.error (startFault "isolate init failed" cause), counter, [⟨box, .make, b.make⟩]⟩
      | none =>
        ⟨if b.cancelsRun then .error b.reason else readRun b req, counter,
          [⟨box, .make, b.make⟩, ⟨box, .run req (Files.inside dir), b.run⟩, ⟨box, .remove, b.remove⟩]⟩

/-- A request on its way to the executor, with what the tool will do and the directory for the files. -/
structure Visit where
  behaviour : Behaviour
  dir : Bytes
  request : RunRequest

/-- One call after the other, from a counter on. -/
def session (counter : Counter) : List Visit → List Call
  | [] => []
  | v :: rest =>
    let c := execute v.behaviour v.dir counter v.request
    c :: session c.counter rest

end Stopwatch.Isolate
