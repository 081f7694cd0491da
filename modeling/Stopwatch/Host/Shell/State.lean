import Stopwatch.Direct.Timeline
import Stopwatch.Host.Shell.Syntax
import Stopwatch.Host.Wrapper

/-!
The state of a shell that is running: its variables and options, where its output goes, the clock, and what it shares
with the other processes of the host.
-/

namespace Stopwatch.Host.Shell

open Direct (Channel)

/-- What a descriptor leads to. -/
inductive Handle where
  | channel (c : Channel)
  | pipe (number : Nat)
  | file (parts : Parts)
  /-- An open input, by number. -/
  | stream (number : Nat)
  | nowhere
  deriving DecidableEq

/-- What can still be read from an open input, and the moment from which it is complete. -/
structure Source where
  data : Data := []
  ready : Nat := 0
  /-- Whether a reader can give back what it did not use. -/
  rewinds : Bool := false

/-- How control goes on after a command. -/
inductive Flow where
  | next
  | exit
  | leaveLoop (levels : Nat)
  | nextRound (levels : Nat)
  | leaveFunction
  /-- A command inside the shell refused its words. -/
  | refused
  | killed (signal : Nat)
  /-- Beyond the moment after which nobody looks. -/
  | cut
  deriving DecidableEq

/-- A process in the background. -/
structure Job where
  pid : Nat
  finish : Nat
  status : Nat
  /-- Whether the signal that ended it was told. -/
  told : Bool := false

/-- Something written by a process. -/
structure Output where
  moment : Nat
  owner : Nat
  channel : Channel
  data : Data

/-- What all processes share. Lists of what happened hold the latest first. -/
structure World where
  files : Files
  nextPid : Nat := 1001
  nextPipe : Nat := 0
  pipes : List (Nat × List Chunk) := []
  nextStream : Nat := 0
  streams : List (Nat × Source) := []
  outputs : List Output := []
  /-- Processes that hold the outputs open, with the moment of their end. -/
  holders : List (Nat × Nat) := []
  /-- Signals sent to processes that have not noticed them yet. -/
  signals : List (Nat × Nat) := []
  /-- Kilobytes of the first process. -/
  memory : List (Nat × Nat) := []
  /-- Whether the first process has left the group that it was started in. -/
  apart : Bool := false
  horizon : Nat

/-- How far `getopts` has come: the words it took and the octets of the current one. -/
structure OptionScan where
  words : Nat := 0
  octets : Nat := 0

/-- A shell at work. -/
structure State where
  world : World
  now : Nat := 0
  status : Nat := 0
  bindings : List (Bytes × Data) := []
  exported : List Bytes := []
  /-- Variables that cannot be changed. -/
  frozen : List Bytes := []
  parameters : List Bytes := []
  name : Bytes := []
  directory : Parts := []
  functions : List (Bytes × Command) := []
  /-- Commands whose files were found, latest first. -/
  tracked : List (Bytes × Bytes) := []
  aliases : List (Bytes × Bytes) := []
  /-- Actions by the number of the signal; zero is the end of the shell. -/
  traps : List (Nat × Bytes) := []
  /-- The letters of the options that are on. -/
  options : Bytes := []
  /-- The permissions that new files do not get. -/
  mask : Nat := 18
  scan : OptionScan := {}
  /-- The status of the last embedded command. -/
  embedded : Nat := 0
  /-- Whether a function runs, and what its local variables hide. -/
  inFunction : Bool := false
  /-- How many functions run inside each other. -/
  depth : Nat := 0
  hidden : List (Bytes × Option Data) := []
  /-- The command that runs the script, if it is one of the shell's own. -/
  speaker : Option Bytes := none
  /-- The loops around the command. -/
  loops : Nat := 0
  /-- Whether somebody looks at the status of what runs, so that a failure does not end the shell. -/
  guarded : Bool := false
  handles : List (Nat × Handle) := [(0, .nowhere), (1, .channel .out), (2, .channel .err)]
  /-- The process itself, the shell that `$$` names, and the process above. -/
  pid : Nat := 1000
  shellPid : Nat := 1000
  parentPid : Nat := 1
  jobs : List Job := []
  lastJob : Option Nat := none
  flow : Flow := .next
  line : Nat := 1

/-- Nanoseconds that a command inside the shell takes, and a new process. -/
def builtinCost : Nat := 2000

def processCost : Nat := 1000000

/-- How long a process without limit is followed, in nanoseconds. -/
def longestLife : Nat := 600000000000

/-- Kilobytes of a shell without variables. -/
def baseMemory : Nat := 1700

/-- The octets of a text that are too many to go on with. -/
def textBound : Nat := 16777216

/-- The row of a name in the shell's tables. -/
def tableRow (name : Bytes) : Nat :=
  (name.foldl (fun n b => n + b.toNat) ((name.head?.getD 0).toNat * 16)) % 39

namespace State

/-- Lets time pass; beyond the horizon nothing goes on. -/
def spend (s : State) (ns : Nat) : State :=
  let now := s.now + ns
  { s with now, flow := if s.world.horizon < now && s.flow = .next then .cut else s.flow }

/-- Waits for a moment. -/
def waitUntil (s : State) (moment : Nat) : State := s.spend (moment - s.now)

def runs (s : State) : Bool := s.flow = .next

def setStatus (s : State) (status : Nat) : State := { s with status }

/-- Whether an option is on. -/
def has (s : State) (letter : Char) : Bool := s.options.contains letter.toUInt8

def handle? (s : State) (descriptor : Nat) : Option Handle := s.handles.lookup descriptor

/-- Points a descriptor somewhere else, or closes it. -/
def point (s : State) (descriptor : Nat) (handle : Option Handle) : State :=
  let others := s.handles.filter fun h => h.1 ≠ descriptor
  { s with handles := match handle with
      | some h => (descriptor, h) :: others
      | none => others }

/-- Writes to a descriptor. -/
def write (s : State) (descriptor : Nat) (data : Data) : State :=
  if data.isEmpty then s
  else
    match s.handle? descriptor with
    | some (.channel c) =>
      let w := s.world
      { s with world := { w with outputs := { moment := s.now, owner := s.pid, channel := c, data } :: w.outputs } }
    | some (.pipe n) =>
      let w := s.world
      let before := (w.pipes.lookup n).getD []
      { s with world := { w with pipes := (n, data.reverse ++ before) :: w.pipes.filter fun p => p.1 != n } }
    | some (.file parts) =>
      let w := s.world
      let (before, executable) := match w.files.get? parts with
        | some (.file content executable) => (content, executable)
        | _ => ([], false)
      { s with world := { w with files := w.files.put parts (.file (before ++ data.bytes) executable) } }
    | _ => s

def print (s : State) (text : Bytes) : State := s.write 1 (Data.ofBytes text)

/-- What a process reads from a descriptor. -/
def source (s : State) (descriptor : Nat) : Source :=
  match s.handle? descriptor with
  | some (.stream n) => (s.world.streams.lookup n).getD {}
  | _ => {}

/-- Leaves something else to be read from a descriptor. -/
def setSource (s : State) (descriptor : Nat) (data : Data) : State :=
  match s.handle? descriptor with
  | some (.stream n) =>
    { s with world := { s.world with
        streams := s.world.streams.map fun t => if t.1 = n then (n, { t.2 with data }) else t } }
  | _ => s

/-- Opens an input. -/
def openSource (s : State) (source : Source) : Nat × State :=
  let n := s.world.nextStream
  (n, { s with world := { s.world with nextStream := n + 1, streams := (n, source) :: s.world.streams } })

/-- A complaint of the shell, with its name, the line, and the command that runs the script. -/
def complain (s : State) (text : Bytes) : State :=
  let place := s.name ++ utf8 ": " ++ Integer.ofNat s.line ++ utf8 ": "
  let place := match s.speaker with
    | some name => place ++ name ++ utf8 ": "
    | none => place
  s.write 2 (Data.ofBytes (place ++ text ++ [Ascii.newline]))

/-- A command inside the shell refuses its words. -/
def refuse (s : State) (text : Bytes) : State := { s.complain text with status := 2, flow := .refused }

/-- A complaint that ends the shell. -/
def abort (s : State) (text : Bytes) : State := { s.complain text with status := 2, flow := .exit }

/-- Opens a pipe. -/
def openPipe (s : State) : Nat × State :=
  let n := s.world.nextPipe
  (n, { s with world := { s.world with nextPipe := n + 1, pipes := (n, []) :: s.world.pipes } })

/-- Takes what was written to a pipe. -/
def takePipe (s : State) (n : Nat) : Data × State :=
  (((s.world.pipes.lookup n).getD []).reverse,
    { s with world := { s.world with pipes := s.world.pipes.filter fun p => p.1 != n } })

def get? (s : State) (name : Bytes) : Option Data := s.bindings.lookup name

/-- The kilobytes that the variables of the shell take. -/
def kilobytes (s : State) : Nat :=
  baseMemory + (s.bindings.foldl (fun n v => n + v.2.size) 0) / 1024

/-- The first process leaves its group: whoever looks at it cannot end it any more. -/
def leaveGroup (s : State) : State :=
  if s.pid = 1000 then { s with world := { s.world with apart := true, horizon := longestLife } } else s

/-- Notes how much memory the first process uses. -/
def noteMemory (s : State) (kb : Nat) : State :=
  if s.pid = 1000 && (s.world.memory.head?.map Prod.snd) ≠ some kb then
    { s with world := { s.world with memory := (s.now, kb) :: s.world.memory } }
  else s

def set (s : State) (name : Bytes) (value : Data) : State :=
  let s := { s with bindings := (name, value) :: s.bindings.filter fun v => v.1 != name }
  let s := if s.has 'a' && !s.exported.contains name then { s with exported := name :: s.exported } else s
  let s := if name == utf8 "OPTIND" then { s with scan := { words := 0, octets := 0 } } else s
  if 4096 ≤ value.size then s.noteMemory s.kilobytes else s

/-- Sets a variable that can be changed; none if it cannot. -/
def set? (s : State) (name : Bytes) (value : Data) : Option State :=
  if s.frozen.contains name then none else some (s.set name value)

def unset (s : State) (name : Bytes) : State :=
  { s with
    bindings := s.bindings.filter fun v => v.1 != name
    exported := s.exported.filter fun n => n != name }

/-- The letters of the options as `$-` shows them. -/
def optionLetters (s : State) : Bytes := (utf8 "ubaCEVvxsnmiIfe").filter s.options.contains

/-- The first octet between the parameters of a joined list. -/
def joint (s : State) : Bytes :=
  match s.get? (utf8 "IFS") with
  | none => [Ascii.space]
  | some v => v.bytes.take 1

/-- The value of a variable or parameter, none if it is not set. -/
def value? (s : State) (name : Bytes) : Option Bytes :=
  if name == utf8 "?" then some (Integer.ofNat s.status)
  else if name == utf8 "$" then some (Integer.ofNat s.shellPid)
  else if name == utf8 "#" then some (Integer.ofNat s.parameters.length)
  else if name == utf8 "!" then s.lastJob.map Integer.ofNat
  else if name == utf8 "-" then some s.optionLetters
  else if name == utf8 "0" then some s.name
  else if name == utf8 "@" || name == utf8 "*" then
    if s.parameters.isEmpty then none else some (Bytes.join s.joint s.parameters)
  else if name == utf8 "PPID" then some (Integer.ofNat s.parentPid)
  else if name.all Ascii.isDigit then
    let n := name.foldl (fun n d => n * 10 + (d.toNat - 48)) 0
    if n = 0 then some s.name else s.parameters[n - 1]?
  else (s.get? name).map Data.bytes

/-- The octets at which an unquoted value is split. -/
def separators (s : State) : Bytes := ((s.get? (utf8 "IFS")).map Data.bytes).getD (utf8 " \t\n")

/-- The variables that other programs see, in the order of the shell's table. -/
def environment (s : State) : List (Bytes × Bytes) :=
  let known := s.exported.reverse.filterMap fun name => (s.get? name).map fun v => (name, v.bytes)
  known.mergeSort fun a b => tableRow a.1 ≤ tableRow b.1

/-- A new process that starts as a copy. -/
def fork (s : State) : State :=
  let pid := s.world.nextPid
  { s with
    pid, jobs := [], flow := .next, parentPid := s.parentPid
    traps := s.traps.filter fun t => t.2.isEmpty
    loops := 0
    world := { s.world with nextPid := pid + 1 } }

/-- Goes on after a copy has ended: what is shared is taken over, and its end is waited for. -/
def join (s child : State) : State :=
  { s with
    world := child.world
    now := child.now
    flow := if child.flow = .cut then .cut else s.flow }

/-- Whether the process holds the outputs open. -/
def holdsOutput (s : State) : Bool :=
  s.handles.any fun h =>
    match h.2 with
    | .channel _ => true
    | _ => false

end State

/-- The signals by number; the first stands for the end of the shell, and some have no name. -/
def signalNames : List String :=
  ["EXIT", "HUP", "INT", "QUIT", "ILL", "TRAP", "ABRT", "BUS", "FPE", "KILL", "USR1", "SEGV", "USR2", "PIPE", "ALRM",
    "TERM", "16", "CHLD", "CONT", "STOP", "TSTP", "TTIN", "TTOU", "URG", "XCPU", "XFSZ", "VTALRM", "PROF", "WINCH", "IO",
    "PWR", "SYS", "32", "33", "RTMIN"] ++ (List.range 15).map (fun n => s!"RTMIN+{n + 1}")
    ++ (List.range 14).map (fun n => s!"RTMAX-{14 - n}") ++ ["RTMAX"]

/-- The signal that a name or a number stands for. -/
def signalOf (s : Bytes) : Option Nat :=
  match naturalOf s with
  | some n => if n < signalNames.length then some n else none
  | none => signalNames.findIdx? fun name => utf8 name == s.map Ascii.upper

/-- The name of a signal. -/
def signalName (n : Nat) : Bytes := utf8 (signalNames[n]?.getD "")

/-- What the shell says about a command that a signal ended. -/
def signalText : Nat → Option String
  | 1 => some "Hangup"
  | 3 => some "Quit"
  | 4 => some "Illegal instruction"
  | 5 => some "Trace/breakpoint trap"
  | 6 => some "Aborted"
  | 7 => some "Bus error"
  | 8 => some "Floating point exception"
  | 9 => some "Killed"
  | 10 => some "User defined signal 1"
  | 11 => some "Segmentation fault"
  | 12 => some "User defined signal 2"
  | 14 => some "Alarm clock"
  | 15 => some "Terminated"
  | _ => none

end Stopwatch.Host.Shell
