import Stopwatch.Host.Shell.State

/-!
Processes as a shell sees them: what a program of the system does to the world, what is left of one that ended, the
signals between them, and how a command name is looked up.
-/

namespace Stopwatch.Host.Shell

/-- The status that a shell sees of an ended process, with its message. -/
def State.reap (s child : State) : State :=
  let s := s.join child
  match child.flow with
  | .killed signal =>
    let s := match signalText signal with
      | some text => s.write 2 (Data.ofBytes (utf8 text ++ [Ascii.newline]))
      | none => s
    s.setStatus (128 + signal)
  | _ => s.setStatus child.status

/-- A process that ended as a command of its own. -/
def State.ended (s : State) : State :=
  match s.flow with
  | .killed _ => s
  | .cut => s
  | _ => { s with flow := .next, status := s.status % 256 }

/-- Lets a program do what it does. Output without end goes on for ever, unless a pipe takes it. -/
def State.perform (s : State) (e : Effect) : State :=
  let s := if e.reads then (s.waitUntil (s.source 0).ready).setSource 0 e.leaves else s
  if !s.runs then s
  else
    let toPipe := match s.handle? 1 with
      | some (.pipe _) => true
      | _ => false
    if !e.out.isFinite && !toPipe then s.waitUntil (s.world.horizon + 1)
    else
      let s := match e.files with
        | some files => { s with world := { s.world with files } }
        | none => s
      let s := s.write 1 e.out
      let s := s.write 2 (Data.ofBytes e.err)
      (s.spend e.lasts).setStatus e.status

def State.call (s : State) (args : List Bytes) : Call :=
  let source := s.source 0
  { args, input := source.data, rewinds := source.rewinds, directory := s.directory, files := s.world.files
    environment := s.environment }

/-- Sends a signal to a process. A process in the background ends at once. -/
def State.signal (s : State) (signal pid : Nat) : State :=
  if s.jobs.any fun j => j.pid = pid then
    if signal = 0 then s
    else
      let world := { s.world with
        outputs := s.world.outputs.filter fun o => o.owner ≠ pid || o.moment ≤ s.now
        holders := s.world.holders.map fun h => if h.1 = pid then (pid, min h.2 s.now) else h }
      { s with
        world
        jobs := s.jobs.map fun j =>
          if j.pid = pid && s.now < j.finish then { j with finish := s.now, status := 128 + signal } else j }
  else if signal = 0 then s
  else { s with world := { s.world with signals := (pid, signal) :: s.world.signals } }

/-- Whether a process is there to be signalled. -/
def State.isAlive (s : State) (pid : Nat) : Bool :=
  pid = s.shellPid || pid = s.pid || pid = 1000 || pid = s.parentPid || s.jobs.any fun j => j.pid = pid

/-- What a process number of `kill` stands for: zero and negative ones mean the whole group. -/
def pidOf (n : Int64) : Nat := if n ≤ 0 then 1000 else n.toNatClampNeg

/-- The program that sends signals: the one named first, or the usual one, to the processes behind it. -/
def State.killTool (s : State) (args : List Bytes) : State :=
  let given : Option (Nat × List Bytes) := match args with
    | first :: rest =>
      if first == utf8 "-s" then
        match rest with
        | name :: rest => (Wrapper.signalNumber name).map (·, rest)
        | [] => none
      else if first == utf8 "--" then some (15, rest)
      else if Bytes.startsWith (utf8 "-") first && 1 < first.length then
        (Wrapper.signalNumber (first.drop 1)).map fun n => (n, if rest.head? = some (utf8 "--") then rest.tail else rest)
      else some (15, args)
    | [] => none
  match given with
  | none => s.perform (.fail 1 (utf8 "kill: not enough arguments"))
  | some (signal, targets) =>
    targets.foldl (fun s target =>
      match Leading.whole? (some 10) false target with
      | none =>
        let text := utf8 "kill: failed to parse argument: " ++ quoted target ++ utf8 "\n"
        (s.write 2 (Data.ofBytes text)).setStatus 1
      | some n =>
        if s.isAlive (pidOf n) then s.signal signal (pidOf n)
        else
          (s.write 2 (Data.ofBytes (utf8 "kill: (" ++ target ++ utf8 "): No such process\n"))).setStatus 1) (s.setStatus 0)

/-- The value of `PATH`, or the one that a shell assumes. -/
def State.searchPath (s : State) : Bytes :=
  ((s.get? (utf8 "PATH")).map Data.bytes).getD
    (utf8 "/usr/local/sbin:/usr/local/bin:/usr/sbin:/usr/bin:/sbin:/bin")

/-- What can be started at a path, or the status and words of the refusal. -/
def State.startable (s : State) (name path : Bytes) : Except (Nat × Bytes) (Node × Bytes) :=
  match s.world.files.find (partsFrom s.directory path) with
  | .ok (.tool t) => .ok (.tool t, path)
  | .ok (.file content true) => .ok (.file content true, path)
  | .ok _ => .error (126, name ++ utf8 ": Permission denied")
  | .error _ => .error (127, name ++ utf8 ": not found")

/-- Looks a command up: what stands behind its name, or the status and words of the refusal. -/
def State.lookup (s : State) (name : Bytes) : Except (Nat × Bytes) (Node × Bytes) :=
  if name.isEmpty then .error (127, utf8 ": Permission denied")
  else if name.contains Ascii.slash then s.startable name name
  else
    let tries := (Bytes.split Ascii.colon s.searchPath).map fun directory =>
      let path := if directory.isEmpty then name else directory ++ [Ascii.slash] ++ name
      match s.world.files.find (partsFrom s.directory path) with
      | .ok .directory => .error (127, name ++ utf8 ": not found")
      | _ => s.startable name path
    match tries.find? fun t => t.isOk with
    | some found => found
    | none =>
      match tries.find? fun t =>
        match t with
        | .error (126, _) => true
        | _ => false with
      | some denied => denied
      | none => .error (127, name ++ utf8 ": not found")

/-- The interpreter that the first line of a script names, with its argument. -/
def interpreter? (content : Bytes) : Option (Bytes × List Bytes) :=
  if Bytes.startsWith (utf8 "#!") content then
    let line := (content.drop 2).takeWhile (· != Ascii.newline)
    let line := (line.dropWhile fun b => b == Ascii.space || b == Ascii.tab)
    let line := (line.reverse.dropWhile fun b =>
      b == Ascii.space || b == Ascii.tab || b == Ascii.carriageReturn).reverse
    let path := line.takeWhile fun b => b != Ascii.space && b != Ascii.tab
    let rest := (line.drop path.length).dropWhile fun b => b == Ascii.space || b == Ascii.tab
    some (path, if rest.isEmpty then [] else [rest])
  else none

/-- The options of a shell with their letters, in the order of its lists. -/
def optionNames : List (String × Option Char) :=
  [("errexit", some 'e'), ("noglob", some 'f'), ("ignoreeof", some 'I'), ("interactive", some 'i'),
    ("monitor", some 'm'), ("noexec", some 'n'), ("stdin", some 's'), ("xtrace", some 'x'), ("verbose", some 'v'),
    ("vi", some 'V'), ("emacs", some 'E'), ("noclobber", some 'C'), ("allexport", some 'a'), ("notify", some 'b'),
    ("nounset", some 'u'), ("privileged", some 'p'), ("nolog", none), ("debug", none)]

/-- The options with letters switched on or off; an unknown letter is given back. -/
def switchOptions (on : Bool) (options : Bytes) (letters : Bytes) : Except UInt8 Bytes :=
  letters.foldl (fun acc letter =>
    match acc with
    | .error e => .error e
    | .ok options =>
      if optionNames.any fun o => o.2.any fun c => c.toUInt8 == letter then
        .ok (if on then letter :: options.filter (· != letter) else options.filter (· != letter))
      else .error letter) (.ok options)

/-- The options with a named one switched on or off; none if the name is unknown. -/
def nameOption (on : Bool) (options name : Bytes) : Option Bytes :=
  match optionNames.find? fun o => utf8 o.1 == name with
  | none => none
  | some (_, none) => some options
  | some (_, some c) => (switchOptions on options [c.toUInt8]).toOption

/-- How a shell was started. -/
structure Startup where
  options : Bytes := []
  /-- Whether the first word is the script itself. -/
  script : Bool := false
  /-- Whether the script comes from the input. -/
  fromInput : Bool := false

/-- Reads options off the words of a shell; an error is its text. -/
def startup : List Bytes → Startup → Except Bytes (Startup × List Bytes)
  | [], o => .ok (o, [])
  | word :: rest, o =>
    match word with
    | sign :: letters =>
      if (sign == Ascii.minus || sign == Ascii.plus) && !letters.isEmpty then
        if letters == [Ascii.minus] then .ok (o, rest)
        else
          let on := sign == Ascii.minus
          let named := letters.contains 0x6f
          let plain := letters.filter fun b => b != 0x63 && b != 0x6f && b != 0x73
          match switchOptions on o.options plain with
          | .error letter => .error (utf8 "Illegal option -" ++ [letter])
          | .ok options =>
            let o : Startup :=
              { options, script := o.script || (on && letters.contains 0x63)
                fromInput := o.fromInput || (on && letters.contains 0x73) }
            if named then
              match rest with
              | [] => .ok (o, [])
              | name :: rest =>
                match nameOption on o.options name with
                | some options => startup rest { o with options }
                | none => .error (utf8 "Illegal option -o " ++ name)
            else startup rest o
      else if word == [Ascii.minus] then .ok (o, rest)
      else .ok (o, word :: rest)
    | [] => .ok (o, word :: rest)

/-- A shell that starts afresh in a process: of the variables only the exported ones are left. -/
def State.freshShell (s : State) (name : Bytes) (parameters : List Bytes) (options : Bytes) : State :=
  let kept := s.bindings.filter fun v =>
    s.exported.contains v.1 && v.1 != utf8 "IFS" && v.1 != utf8 "OPTIND" && v.1 != utf8 "PWD" && v.1 != utf8 "PPID"
  let own : List (Bytes × Bytes) :=
    [(utf8 "IFS", utf8 " \t\n"), (utf8 "OPTIND", utf8 "1"), (utf8 "PWD", pathOf s.directory),
      (utf8 "PPID", Integer.ofNat s.shellPid)]
  let usual : List (Bytes × Bytes) :=
    [(utf8 "PATH", s.searchPath), (utf8 "PS1", utf8 "# "), (utf8 "PS2", utf8 "> "), (utf8 "PS4", utf8 "+ ")]
  let usual := usual.filter fun v => !kept.any fun k => k.1 == v.1
  { s with
    name, parameters, options
    status := 0
    bindings := kept ++ (own ++ usual).map fun (n, v) => (n, Data.ofBytes v)
    exported := utf8 "PWD" :: s.exported.filter fun n => n != utf8 "PWD" && kept.any fun k => k.1 == n
    frozen := []
    functions := []
    tracked := []
    aliases := []
    scan := {}
    traps := s.traps.filter fun t => t.2.isEmpty
    inFunction := false
    depth := 0
    hidden := []
    speaker := none
    loops := 0
    guarded := false
    shellPid := s.pid
    parentPid := s.shellPid
    jobs := []
    lastJob := none
    flow := .next
    line := 1 }

end Stopwatch.Host.Shell
