import Stopwatch.Host.Printf
import Stopwatch.Host.Shell.Process
import Stopwatch.Host.Shell.Reader

/-!
The commands inside the shell that run no other command. Each takes its words and gives the shell afterwards.
-/

namespace Stopwatch.Host.Shell.Builtin

/-- A text that the shell reads back as it is. -/
def singleQuoted : Nat → Bytes → Bytes
  | 0, _ => []
  | fuel + 1, s =>
    let plain := s.takeWhile (· != Ascii.singleQuote)
    let rest := s.drop plain.length
    let quotes := rest.takeWhile (· == Ascii.singleQuote)
    let front := utf8 "'" ++ plain ++ utf8 "'"
    if quotes.isEmpty then front
    else
      let rest := rest.drop quotes.length
      front ++ utf8 "\"" ++ quotes ++ utf8 "\"" ++ (if rest.isEmpty then [] else singleQuoted fuel rest)

def quote (s : Bytes) : Bytes := singleQuoted (s.length + 1) s

/-- Reads the options in front of words. Letters of the second list want a value. -/
def options (flags valued : String) : Nat → List Bytes → List (UInt8 × Bytes) →
    Except Bytes (List (UInt8 × Bytes) × List Bytes)
  | 0, words, acc => .ok (acc.reverse, words)
  | _, [], acc => .ok (acc.reverse, [])
  | fuel + 1, word :: rest, acc =>
    if !Bytes.startsWith (utf8 "-") word || word.length = 1 then .ok (acc.reverse, word :: rest)
    else if word == utf8 "--" then .ok (acc.reverse, rest)
    else letters fuel word.tail rest acc
where
  /-- The letters of one word. -/
  letters (fuel : Nat) : Bytes → List Bytes → List (UInt8 × Bytes) → Except Bytes (List (UInt8 × Bytes) × List Bytes)
    | [], rest, acc => options flags valued fuel rest acc
    | b :: more, rest, acc =>
      if (utf8 flags).contains b then letters fuel more rest ((b, []) :: acc)
      else if (utf8 valued).contains b then
        if !more.isEmpty then options flags valued fuel rest ((b, more) :: acc)
        else
          match rest with
          | v :: rest => options flags valued fuel rest ((b, v) :: acc)
          | [] => .error (utf8 "No arg for -" ++ [b] ++ utf8 " option")
      else .error (utf8 "Illegal option -" ++ [b])

/-- Goes on with the options in front of words; a wrong one is refused. -/
def withOptions (name flags valued : String) (args : List Bytes) (s : State)
    (k : (UInt8 → Bool) → List Bytes → State) : State :=
  match options flags valued (args.length + 1) args [] with
  | .error text => s.refuse (utf8 name ++ utf8 ": " ++ text)
  | .ok (given, words) => k (fun letter => given.any fun o => o.1 == letter) words

/-- A number that a command of the shell takes: not negative, and of 32 bits. -/
def number? (s : Bytes) : Option Nat :=
  match Leading.whole? (some 10) false s with
  | some n => if 0 ≤ n && n.toInt < Int.pow 2 31 then some n.toNatClampNeg else none
  | none => none

def illegal (name s : Bytes) : Bytes := name ++ utf8 ": Illegal number: " ++ s

/-- Writes to the output; a closed one is complained about. -/
def put (name : String) (text : Bytes) (s : State) : State :=
  if (s.handle? 1).isNone && !text.isEmpty then
    (s.complain (utf8 name ++ utf8 ": " ++ utf8 name ++ utf8 ": I/O error")).setStatus 1
  else s.print text

/-- Prints its words; escapes count, and `-n` in front leaves the newline out. -/
def echo (args : List Bytes) (s : State) : State :=
  let (plain, args) := if args.head? = some (utf8 "-n") then (true, args.tail) else (false, args)
  let (text, stops) := Printf.echoText (Bytes.join [Ascii.space] args)
  put "echo" (if plain || stops then text else text ++ [Ascii.newline]) (s.setStatus 0)

def flawText : Printf.Flaw → Bytes
  | .noNumber => utf8 "expected numeric value"
  | .partly => utf8 "not completely converted"
  | .outOfRange => utf8 "Numerical result out of range"

def printf (args : List Bytes) (s : State) : State :=
  withOptions "printf" "" "" args s fun _ words =>
    match words with
    | [] => s.refuse (utf8 "printf: usage: printf format [arg ...]")
    | format :: rest =>
      let o := Printf.print format rest
      let s := o.flaws.foldl (fun s (arg, flaw) =>
        (s.complain (utf8 "printf: " ++ arg ++ utf8 ": " ++ flawText flaw)).setStatus 1) (s.setStatus 0)
      let s := put "printf" o.text s
      match o.bad with
      | none => s
      | some [] => s.refuse (utf8 "printf: missing format character")
      | some text => s.refuse (utf8 "printf: " ++ text ++ utf8 ": invalid directive")

/-- Leaves the shell or a function. -/
def leave (name : String) (flow : Flow) (args : List Bytes) (s : State) : State :=
  match args.head? with
  | none => { s with flow }
  | some text =>
    match number? text with
    | some n => { s with status := n, flow }
    | none => s.refuse (illegal (utf8 name) text)

/-- Leaves loops or goes to the next round, no further out than there are loops. -/
def jump (name : String) (flow : Nat → Flow) (args : List Bytes) (s : State) : State :=
  let text := args.head?.getD (utf8 "1")
  match number? text with
  | none => s.refuse (illegal (utf8 name) text)
  | some 0 => s.refuse (illegal (utf8 name) text)
  | some n => if s.loops = 0 then s.setStatus 0 else { s with status := 0, flow := flow (min n s.loops) }

/-- The directory that a word leads to, and whether it is named to the user. -/
def destination (target : Bytes) (s : State) : Option (Parts × Bool) :=
  let isDirectory (parts : Parts) : Bool := (s.world.files.find parts).toOption = some .directory
  let first := (Bytes.split Ascii.slash target).head?.getD []
  let searches := !(target.isEmpty || first.isEmpty || first == utf8 "." || first == utf8 "..")
  let places := if searches then ((s.value? (utf8 "CDPATH")).map (Bytes.split Ascii.colon)).getD [] else []
  let found := places.findSome? fun place =>
    let parts := partsFrom (partsFrom s.directory place) target
    if isDirectory parts then some (parts, !place.isEmpty) else none
  match found with
  | some f => some f
  | none =>
    let parts := partsFrom s.directory target
    if isDirectory parts then some (parts, false) else none

def cd (args : List Bytes) (s : State) : State :=
  withOptions "cd" "LP" "" args s fun _ words =>
    let target := words.head?.getD ((s.value? (utf8 "HOME")).getD [])
    let back := target == utf8 "-"
    let target := if back then (s.value? (utf8 "OLDPWD")).getD (pathOf s.directory) else target
    match destination target s with
    | none => s.refuse (utf8 "cd: can't cd to " ++ target)
    | some (directory, named) =>
      let before := pathOf s.directory
      let s := if back || named then s.print (pathOf directory ++ [Ascii.newline]) else s
      let s := (s.set (utf8 "OLDPWD") (Data.ofBytes before)).set (utf8 "PWD") (Data.ofBytes (pathOf directory))
      let added := [utf8 "OLDPWD", utf8 "PWD"].filter fun n => !s.exported.contains n
      { s with directory, exported := added ++ s.exported, status := 0 }

def pwd (args : List Bytes) (s : State) : State :=
  withOptions "pwd" "LP" "" args s fun _ _ => put "pwd" (pathOf s.directory ++ [Ascii.newline]) (s.setStatus 0)

def test (name : Bytes) (args : List Bytes) (s : State) : State :=
  match Condition.test name (s.call args) with
  | .ok v => s.setStatus (if v then 0 else 1)
  | .error text => s.refuse (name ++ utf8 ": " ++ text)

/-- A variable with its value, as a script sets it. -/
def shown (front : String) (name : Bytes) (value : Option Data) : Bytes :=
  utf8 front ++ name ++ (match value with
    | some v => utf8 "=" ++ quote v.bytes
    | none => []) ++ [Ascii.newline]

def ordered (names : List Bytes) : List Bytes := names.mergeSort fun a b => a ≤ b

/-- Gives variables an attribute, and values where words have them. -/
def markAll (name : String) (mark : Bytes → State → State) (marked : State → List Bytes) (args : List Bytes)
    (s : State) : State :=
  withOptions name "p" "" args s fun has words =>
    if words.isEmpty || has 0x70 then
      put name ((ordered (marked s)).flatMap fun n => shown (name ++ " ") n (s.get? n)) (s.setStatus 0)
    else
      words.foldl (fun s word =>
        if !s.runs then s
        else
          let (target, value) : Bytes × Option Bytes := match Bytes.cut Ascii.equals word with
            | some (n, v) => (n, some v)
            | none => (word, none)
          if !isName target then s.refuse (utf8 name ++ utf8 ": " ++ target ++ utf8 ": bad variable name")
          else
            match value with
            | none => mark target s
            | some v =>
              match s.set? target (Data.ofBytes v) with
              | some s => mark target s
              | none => s.refuse (utf8 name ++ utf8 ": " ++ target ++ utf8 ": is read only")) (s.setStatus 0)

def exportAll : List Bytes → State → State :=
  markAll "export" (fun n s => { s with exported := n :: s.exported.filter (· != n) }) State.exported

def readonlyAll : List Bytes → State → State :=
  markAll "readonly" (fun n s => { s with frozen := n :: s.frozen.filter (· != n) }) State.frozen

/-- Makes variables local to the running function; they keep their values. -/
def localAll (args : List Bytes) (s : State) : State :=
  if !s.inFunction then s.refuse (utf8 "local: not in a function")
  else
    args.foldl (fun s word =>
      if !s.runs then s
      else
        let (name, value) : Bytes × Option Bytes := match Bytes.cut Ascii.equals word with
          | some (n, v) => (n, some v)
          | none => (word, none)
        if !isName name then s.refuse (utf8 "local: " ++ name ++ utf8 ": bad variable name")
        else
          let s := { s with hidden := (name, s.get? name) :: s.hidden }
          match value with
          | none => s
          | some v =>
            match s.set? name (Data.ofBytes v) with
            | some s => s
            | none => s.refuse (utf8 "local: " ++ name ++ utf8 ": is read only")) (s.setStatus 0)

def unset (args : List Bytes) (s : State) : State :=
  withOptions "unset" "vf" "" args s fun has words =>
    words.foldl (fun s name =>
      if !s.runs then s
      else if has 0x66 then { s with functions := s.functions.filter fun f => f.1 != name }
      else if !isName name then s.refuse (utf8 "unset: " ++ name ++ utf8 ": bad variable name")
      else if s.frozen.contains name then s.refuse (utf8 "unset: " ++ name ++ utf8 ": is read only")
      else s.unset name) (s.setStatus 0)

def shift (args : List Bytes) (s : State) : State :=
  let text := args.head?.getD (utf8 "1")
  match number? text with
  | none => s.refuse (illegal (utf8 "shift") text)
  | some n =>
    if s.parameters.length < n then s.refuse (utf8 "shift: can't shift that many")
    else { s with parameters := s.parameters.drop n, status := 0 }

/-- The list of options: as a table, or as commands that set them. -/
def optionList (asCommands : Bool) (s : State) : Bytes :=
  let rows := optionNames.flatMap fun (name, letter) =>
    let on := letter.any s.has
    if asCommands then utf8 (if on then "set -o " else "set +o ") ++ utf8 name ++ [Ascii.newline]
    else utf8 name ++ List.replicate (16 - name.length) Ascii.space ++ utf8 (if on then "on" else "off") ++ [Ascii.newline]
  if asCommands then rows else utf8 "Current option settings\n" ++ rows

/-- Options and then parameters. -/
def setWords : List Bytes → State → State
  | [], s => s
  | word :: rest, s =>
    if word == utf8 "--" then { s with parameters := rest }
    else if word == utf8 "-" then
      let s := { s with options := s.options.filter fun b => b != 0x78 && b != 0x76 }
      if rest.isEmpty then s else { s with parameters := rest }
    else if word == utf8 "-o" || word == utf8 "+o" then
      let on := word == utf8 "-o"
      match rest with
      | name :: rest =>
        match nameOption on s.options name with
        | some options => setWords rest { s with options }
        | none => s.refuse (utf8 "set: Illegal option -o " ++ name)
      | [] => s.print (optionList (!on) s)
    else
      match word with
      | sign :: letters =>
        if (sign == Ascii.minus || sign == Ascii.plus) && !letters.isEmpty then
          match switchOptions (sign == Ascii.minus) s.options letters with
          | .ok options => setWords rest { s with options }
          | .error letter => s.refuse (utf8 "set: Illegal option " ++ [sign, letter])
        else { s with parameters := word :: rest }
      | [] => { s with parameters := word :: rest }

def set (args : List Bytes) (s : State) : State :=
  if args.isEmpty then
    s.print ((ordered (s.bindings.map Prod.fst)).flatMap fun n => shown "" n (s.get? n)) |>.setStatus 0
  else setWords args (s.setStatus 0)

/-- Takes a line off an input: its octets with whether a backslash protects them, whether it is whole, and what is left.
Unless `raw`, a backslash joins lines. -/
def readLine (raw : Bool) : Nat → Bytes → List (UInt8 × Bool) → List (UInt8 × Bool) × Bool × Bytes
  | 0, s, acc => (acc.reverse, false, s)
  | fuel + 1, s, acc =>
    match s with
    | [] => (acc.reverse, false, [])
    | b :: rest =>
      if b == Ascii.newline then (acc.reverse, true, rest)
      else if b == Ascii.nul then readLine raw fuel rest acc
      else if b == Ascii.backslash && !raw then
        match rest with
        | [] => (acc.reverse, false, [])
        | c :: rest => readLine raw fuel rest (if c == Ascii.newline then acc else (c, true) :: acc)
      else readLine raw fuel rest ((b, false) :: acc)

/-- The values of so many variables from a line. The last one gets the rest: a single field without its separator, or
everything but blanks at the end. -/
def lineFields (separators : Bytes) : Nat → List (UInt8 × Bool) → List Bytes
  | 0, _ => []
  | n + 1, line =>
    let separates (x : UInt8 × Bool) : Bool := !x.2 && separators.contains x.1
    let isBlank (x : UInt8 × Bool) : Bool :=
      separates x && (x.1 == Ascii.space || x.1 == Ascii.tab || x.1 == Ascii.newline)
    let line := line.dropWhile isBlank
    let field := line.takeWhile fun x => !separates x
    let behind := line.drop field.length
    if n = 0 then
      let single := behind.all separates && (behind.filter fun x => !isBlank x).length ≤ 1
      let value := if single then field else (line.reverse.dropWhile isBlank).reverse
      [value.map Prod.fst]
    else
      let next := behind.dropWhile isBlank
      let next := match next with
        | x :: rest => if separates x then rest else next
        | [] => []
      field.map Prod.fst :: lineFields separators n next

def read (args : List Bytes) (s : State) : State :=
  match options "r" "p" (args.length + 1) args [] with
  | .error text => s.refuse (utf8 "read: " ++ text)
  | .ok (given, names) =>
    if names.isEmpty then s.refuse (utf8 "read: arg count")
    else if (s.handle? 0).isNone then s.setStatus 1
    else
      let raw := given.any fun o => o.1 == 0x72
      let s := s.waitUntil (s.source 0).ready
      let text := ((s.source 0).data.bounded 1).bytes
      let (line, whole, rest) := readLine raw (text.length + 1) text []
      let s := s.setSource 0 (Data.ofBytes rest)
      let fields := lineFields s.separators names.length line
      (names.zip (fields ++ List.replicate names.length [])).foldl (fun s (name, value) =>
        if !s.runs then s
        else if !isName name then s.refuse (utf8 "read: " ++ name ++ utf8 ": bad variable name")
        else
          match s.set? name (Data.ofBytes value) with
          | some s => s
          | none => s.refuse (utf8 "read: " ++ name ++ utf8 ": is read only")) (s.setStatus (if whole then 0 else 1))

/-- Waits for one process in the background and tells of the signal that ended it. -/
def waitFor (word : Bytes) (s : State) : State :=
  match s.jobs.find? fun j => some j.pid = naturalOf word with
  | none => s.setStatus 127
  | some j =>
    let s := (s.waitUntil (max j.finish s.now)).setStatus j.status
    match (if 128 < j.status && !j.told then signalText (j.status - 128) else none) with
    | some text =>
      { s.write 2 (Data.ofBytes (utf8 text ++ [Ascii.newline])) with
        jobs := s.jobs.map fun k => if k.pid = j.pid then { k with told := true } else k }
    | none => s

def wait (args : List Bytes) (s : State) : State :=
  if args.isEmpty then
    { s.waitUntil (s.jobs.foldl (fun m j => max m j.finish) s.now) with jobs := [], status := 0 }
  else
    args.foldl (fun s word =>
      if !s.runs then s
      else if word.head? = some Ascii.percent then s.refuse (utf8 "wait: No such job: " ++ word)
      else if (number? word).isNone then s.refuse (illegal (utf8 "wait") word)
      else waitFor word s) s

def killUsage : Bytes :=
  utf8 "kill: Usage: kill [-s sigspec | -signum | -sigspec] [pid | job]... or\nkill -l [exitstatus]"

/-- The names of signals, one a line, or that of one signal or of the status that it leaves. -/
def signalList (args : List Bytes) (s : State) : State :=
  match args with
  | [] =>
    let names := (List.range signalNames.length).map fun n => if n = 0 then utf8 "0" else signalName n
    (s.print (names.flatMap fun n => n ++ [Ascii.newline])).setStatus 0
  | word :: _ =>
    match number? word with
    | none => s.refuse (illegal (utf8 "kill") word)
    | some n =>
      let n := if 128 < n then n - 128 else n
      if 0 < n && n < signalNames.length then (s.print (signalName n ++ [Ascii.newline])).setStatus 0
      else s.refuse (utf8 "kill: invalid signal number or exit status: " ++ word)

/-- Sends a signal to processes by their numbers. -/
def killAll (signal : Nat) (targets : List Bytes) (s : State) : State :=
  targets.foldl (fun s target =>
    if !s.runs then s
    else
      match Leading.whole? (some 10) false target with
      | none => s.refuse (illegal (utf8 "kill") target)
      | some n =>
        if s.isAlive (pidOf n) then s.signal signal (pidOf n)
        else (s.complain (utf8 "kill: No such process\n")).setStatus 1) (s.setStatus 0)

def kill (args : List Bytes) (s : State) : State :=
  match args with
  | [] => s.refuse killUsage
  | first :: rest =>
    if first == utf8 "-l" then signalList rest s
    else if first == utf8 "-s" then
      match rest with
      | [] => s.refuse (utf8 "kill: No arg for -s option")
      | name :: targets =>
        match signalOf name with
        | none => s.refuse (utf8 "kill: invalid signal number or name: " ++ name)
        | some n =>
          let targets := if targets.head? = some (utf8 "--") then targets.tail else targets
          if targets.isEmpty then s.refuse killUsage else killAll n targets s
    else if first == utf8 "--" then if rest.isEmpty then s.refuse killUsage else killAll 15 rest s
    else if Bytes.startsWith (utf8 "-") first && 1 < first.length then
      match signalOf first.tail with
      | none => s.refuse (utf8 "kill: Illegal option -" ++ first.tail.take 1)
      | some n =>
        let targets := if rest.head? = some (utf8 "--") then rest.tail else rest
        if targets.isEmpty then s.refuse killUsage else killAll n targets s
    else killAll 15 args s

/-- Sets or drops the actions of signals. -/
def trapAll (action : Option Bytes) (names : List Bytes) (s : State) : State :=
  names.foldl (fun s name =>
    match signalOf name with
    | none =>
      (s.write 2 (Data.ofBytes (utf8 "trap: " ++ name ++ utf8 ": bad trap\n"))).setStatus 1
    | some n =>
      let others := s.traps.filter fun t => t.1 ≠ n
      { s with traps := match action with
          | some a => (n, a) :: others
          | none => others }) (s.setStatus 0)

def trap (args : List Bytes) (s : State) : State :=
  withOptions "trap" "" "" args s fun _ words =>
    match words with
    | [] =>
      let actions := s.traps.mergeSort fun a b => a.1 ≤ b.1
      (s.print (actions.flatMap fun (n, a) =>
        utf8 "trap -- " ++ quote a ++ utf8 " " ++ signalName n ++ [Ascii.newline])).setStatus 0
    | first :: rest =>
      if rest.isEmpty || (signalOf first).isSome then trapAll none words s
      else trapAll (if first == utf8 "-" then none else some first) rest s

def aliasText (name value : Bytes) : Bytes := name ++ utf8 "=" ++ quote value ++ [Ascii.newline]

def shorthand (args : List Bytes) (s : State) : State :=
  if args.isEmpty then
    let all := s.aliases.mergeSort fun a b => tableRow a.1 ≤ tableRow b.1
    (s.print (all.flatMap fun (n, v) => aliasText n v)).setStatus 0
  else
    args.foldl (fun s word =>
      match Bytes.cut Ascii.equals word with
      | some (name, value) =>
        if name.isEmpty then s
        else { s with aliases := s.aliases.filter (fun a => a.1 != name) ++ [(name, value)] }
      | none =>
        match s.aliases.lookup word with
        | some value => s.print (aliasText word value)
        | none => (s.write 2 (Data.ofBytes (utf8 "alias: " ++ word ++ utf8 " not found\n"))).setStatus 1) (s.setStatus 0)

def unalias (args : List Bytes) (s : State) : State :=
  withOptions "unalias" "a" "" args s fun has words =>
    if has 0x61 then { s with aliases := [], status := 0 }
    else
      words.foldl (fun s word =>
        if (s.aliases.lookup word).isSome then { s with aliases := s.aliases.filter fun a => a.1 != word }
        else (s.write 2 (Data.ofBytes (utf8 "unalias: " ++ word ++ utf8 " not found\n"))).setStatus 1) (s.setStatus 0)

/-- The octal numeral of a mask. -/
def maskText (n : Nat) : Bytes :=
  [n / 512 % 8, n / 64 % 8, n / 8 % 8, n % 8].map fun d => (48 + d).toUInt8

/-- The permissions that a mask leaves. -/
def maskSymbols (n : Nat) : Bytes :=
  let who (letter : String) (bits : Nat) : Bytes :=
    utf8 letter ++ utf8 "=" ++ (if bits / 4 % 2 = 0 then utf8 "r" else []) ++ (if bits / 2 % 2 = 0 then utf8 "w" else [])
      ++ (if bits % 2 = 0 then utf8 "x" else [])
  who "u" (n / 64) ++ utf8 "," ++ who "g" (n / 8) ++ utf8 "," ++ who "o" n

/-- Permissions changed by clauses such as `g-w`; none if one is wrong. -/
def changeMode (mode : Nat) (clauses : Bytes) : Option Nat :=
  (Bytes.split Ascii.comma clauses).foldlM (fun mode clause => do
    let who := clause.takeWhile fun b => (utf8 "ugoa").contains b
    let rest := clause.drop who.length
    let op ← rest.head?
    let perms := rest.tail
    if !(utf8 "+-=").contains op || !perms.all fun b => (utf8 "rwxXst").contains b then none
    else
      let all := who.isEmpty || who.contains 0x61
      let bits := (if perms.contains 0x72 then 4 else 0) + (if perms.contains 0x77 then 2 else 0)
        + (if perms.contains 0x78 || perms.contains 0x58 then 1 else 0)
      let change (letter : UInt8) (unit mode : Nat) : Nat :=
        if all || who.contains letter then
          let old := mode / unit % 8
          let new := if op == Ascii.plus then old ||| bits else if op == Ascii.minus then old &&& (7 ^^^ bits) else bits
          mode - old * unit + new * unit
        else mode
      some (change 0x75 64 (change 0x67 8 (change 0x6f 1 mode)))) mode

def umask (args : List Bytes) (s : State) : State :=
  withOptions "umask" "S" "" args s fun has words =>
    match words with
    | [] => (s.print ((if has 0x53 then maskSymbols s.mask else maskText s.mask) ++ [Ascii.newline])).setStatus 0
    | word :: _ =>
      if word.head?.any Ascii.isDigit then
        if word.all Printf.isOctal then
          { s with mask := (word.foldl (fun n d => n * 8 + (d.toNat - 48)) 0) % 512, status := 0 }
        else s.refuse (illegal (utf8 "umask") word)
      else
        match changeMode (511 - s.mask) word with
        | some mode => { s with mask := 511 - mode, status := 0 }
        | none => s.refuse (utf8 "umask: Illegal mode: " ++ word)

def ulimit (args : List Bytes) (s : State) : State :=
  withOptions "ulimit" "HSatfdscmlpnvwr" "" args s fun has words =>
    if !words.isEmpty then s.setStatus 0
    else
      let text := if has 0x63 then "0\n" else if has 0x73 then "8192\n" else if has 0x6e then "1048576\n" else "unlimited\n"
      (s.print (utf8 text)).setStatus 0

/-- Takes one option off words, going on from where the last one was taken. -/
def getopts (args : List Bytes) (s : State) : State :=
  match args with
  | wanted :: target :: rest =>
    let silent := wanted.head? = some Ascii.colon
    let wanted := if silent then wanted.tail else wanted
    let words := if rest.isEmpty then s.parameters else rest
    let finish (found : Bytes) (argument : Option Bytes) (scan : OptionScan) (status : Nat) (s : State) : State :=
      let s := s.set target (Data.ofBytes found)
      let s := match argument with
        | some a => s.set (utf8 "OPTARG") (Data.ofBytes a)
        | none => s.unset (utf8 "OPTARG")
      { s.set (utf8 "OPTIND") (Data.ofBytes (Integer.ofNat (scan.words + 1))) with scan, status }
    let stop (used : Nat) : State := finish (utf8 "?") none { words := used, octets := 0 } 1 s
    let start := (s.value? (utf8 "OPTIND")).bind naturalOf |>.getD 1
    let scan : OptionScan := if s.scan.octets = 0 then { words := start - 1, octets := 0 } else s.scan
    let word := (words[scan.words]?).getD []
    if scan.octets = 0 && (!Bytes.startsWith (utf8 "-") word || word.length = 1) then stop scan.words
    else if scan.octets = 0 && word == utf8 "--" then stop (scan.words + 1)
    else
      let at_ := if scan.octets = 0 then 1 else scan.octets
      let letter := (word[at_]?).getD 0
      let behind := word.drop (at_ + 1)
      let after : OptionScan := if behind.isEmpty then { words := scan.words + 1, octets := 0 }
        else { words := scan.words, octets := at_ + 1 }
      match wanted.idxOf? letter with
      | some i =>
        if letter != Ascii.colon && wanted[i + 1]? = some Ascii.colon then
          if !behind.isEmpty then finish [letter] (some behind) { words := scan.words + 1, octets := 0 } 0 s
          else
            match words[scan.words + 1]? with
            | some value => finish [letter] (some value) { words := scan.words + 2, octets := 0 } 0 s
            | none =>
              if silent then finish (utf8 ":") (some [letter]) after 0 s
              else
                finish (utf8 "?") none after 0
                  (s.write 2 (Data.ofBytes (utf8 "No arg for -" ++ [letter] ++ utf8 " option\n")))
        else finish [letter] none after 0 s
      | none =>
        if silent then finish (utf8 "?") (some [letter]) after 0 s
        else finish (utf8 "?") none after 0 (s.write 2 (Data.ofBytes (utf8 "Illegal option -" ++ [letter, Ascii.newline])))
  | _ => s.refuse (utf8 "getopts: Usage: getopts optstring var [arg...]")

def noJob (name : String) (_ : List Bytes) (s : State) : State := s.refuse (utf8 name ++ utf8 ": No current job")

def hash (args : List Bytes) (s : State) : State :=
  withOptions "hash" "rv" "" args s fun has words =>
    if has 0x72 then { s with tracked := [], status := 0 }
    else if words.isEmpty then
      (s.print (s.tracked.reverse.flatMap fun t => t.2 ++ [Ascii.newline])).setStatus 0
    else
      words.foldl (fun s word =>
        match s.lookup word with
        | .ok (_, path) => { s with tracked := (word, path) :: s.tracked.filter fun t => t.1 != word }
        | .error _ => (s.complain (utf8 "hash: " ++ word ++ utf8 ": not found")).setStatus 1) (s.setStatus 0)

/-- The commands by name. -/
def table : List (String × (List Bytes → State → State)) :=
  [(":", fun _ s => s.setStatus 0), ("true", fun _ s => s.setStatus 0), ("false", fun _ s => s.setStatus 1),
    ("echo", echo), ("printf", printf), ("exit", leave "exit" .exit), ("return", leave "return" .leaveFunction),
    ("break", jump "break" .leaveLoop), ("continue", jump "continue" .nextRound), ("cd", cd), ("chdir", cd),
    ("pwd", pwd), ("test", test (utf8 "test")), ("[", test (utf8 "[")), ("export", exportAll),
    ("readonly", readonlyAll), ("local", localAll), ("unset", unset), ("shift", shift), ("set", set), ("read", read),
    ("wait", wait), ("kill", kill), ("trap", trap), ("alias", shorthand), ("unalias", unalias), ("umask", umask),
    ("ulimit", ulimit), ("getopts", getopts), ("jobs", fun _ s => s.setStatus 0), ("fg", noJob "fg"), ("bg", noJob "bg"),
    ("hash", hash),
    ("times", fun _ s => (s.print (utf8 "0m0.000000s 0m0.000000s\n0m0.000000s 0m0.000000s\n")).setStatus 0)]

/-- The commands of the shell that run others. -/
def runners : List String := [".", "command", "eval", "exec", "type"]

/-- The command that a name stands for. -/
def find? (name : Bytes) : Option (List Bytes → State → State) :=
  (table.find? fun (known, _) => utf8 known == name).map Prod.snd

/-- Whether a name stands for a command of the shell. -/
def isKnown (name : Bytes) : Bool :=
  (table.any fun (known, _) => utf8 known == name) || runners.any fun known => utf8 known == name

end Stopwatch.Host.Shell.Builtin
