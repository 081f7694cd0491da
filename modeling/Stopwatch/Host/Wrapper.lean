import Stopwatch.Host.Tools

/-!
The programs of the system that start others: what they start, with which variables, and for how long.
-/

namespace Stopwatch.Host

/-- What a program that starts others asks for. -/
inductive Wrapper where
  /-- The program does its own work. -/
  | itself (effect : Effect)
  /-- A command, with all its variables if they are others. -/
  | command (environment : Option (List (Bytes × Bytes))) (directory : Option Bytes) (words : List Bytes)
  /-- A command that a signal ends after so many nanoseconds; the status of a signal may be kept. -/
  | bounded (span signal : Nat) (keeps : Bool) (words : List Bytes)
  /-- Commands one after the other, each shown first with `told`. -/
  | batches (told : Bool) (commands : List (List Bytes))
  /-- A command outside the group of the process; nothing if there is no such command. -/
  | apart (words : List Bytes)

namespace Wrapper

/-- Sets a variable among others. -/
def putVariable (bindings : List (Bytes × Bytes)) (name value : Bytes) : List (Bytes × Bytes) :=
  if bindings.any fun v => v.1 == name then bindings.map fun v => if v.1 == name then (name, value) else v
  else bindings ++ [(name, value)]

def env (c : Call) : Wrapper :=
  let o : Options :=
    { flags := "i0v", valued := "uCS"
      long := [("ignore-environment", 'i'), ("null", '0'), ("unset", 'u'), ("chdir", 'C'), ("split-string", 'S'),
        ("debug", 'v')] }
  let (bare, args) := if c.args.head? = some (utf8 "-") then (true, c.args.tail) else (false, c.args)
  match o.parse true (args.length + 1) args {} with
  | .error message => .itself (.misuse "env" 125 message)
  | .ok g =>
    let words := (g.options.filter fun o => o.1 = 'S').flatMap (fun o =>
      (Bytes.split Ascii.space o.2).filter fun w => !w.isEmpty) ++ g.words
    let start := if bare || g.has 'i' then [] else
      c.environment.filter fun v => !g.options.any fun o => o.1 = 'u' && o.2 == v.1
    let words := if words.head? = some (utf8 "-") then words.tail else words
    let settings := words.takeWhile fun a => a.contains Ascii.equals
    let bindings := settings.foldl (fun vs a =>
      match Bytes.cut Ascii.equals a with
      | some (name, value) => putVariable vs name value
      | none => vs) start
    let rest := words.drop settings.length
    if rest.isEmpty then
      let ending := if g.has '0' then Ascii.nul else Ascii.newline
      .itself (.print (bindings.flatMap fun (k, v) => k ++ utf8 "=" ++ v ++ [ending]))
    else .command (some bindings) (g.value? 'C') rest

/-- The signal that a word of `timeout` names. -/
def signalNumber (s : Bytes) : Option Nat :=
  let s := s.map Ascii.upper
  let s := if Bytes.startsWith (utf8 "SIG") s then s.drop 3 else s
  match naturalOf s with
  | some n => if n < 65 then some n else none
  | none =>
    (["EXIT", "HUP", "INT", "QUIT", "ILL", "TRAP", "ABRT", "BUS", "FPE", "KILL", "USR1", "SEGV", "USR2", "PIPE", "ALRM",
      "TERM"].findIdx? fun name => utf8 name == s)

def timeout (c : Call) : Wrapper :=
  let o : Options :=
    { flags := "vpf", valued := "sk"
      long := [("signal", 's'), ("kill-after", 'k'), ("preserve-status", 'p'), ("foreground", 'f'), ("verbose", 'v')] }
  match o.parse true (c.args.length + 1) c.args {} with
  | .error message => .itself (.misuse "timeout" 125 message)
  | .ok g =>
    match g.words with
    | span :: name :: rest =>
      match spanOf span, signalNumber ((g.value? 's').getD (utf8 "TERM")) with
      | none, _ => .itself (.misuse "timeout" 125 (utf8 "invalid time interval " ++ quoted span))
      | _, none => .itself (.misuse "timeout" 125 (quoted ((g.value? 's').getD []) ++ utf8 ": invalid signal"))
      | some span, some signal => .bounded span signal (g.has 'p') (name :: rest)
    | _ => .itself (.fail 125 (utf8 "Try 'timeout --help' for more information."))

/-- A program whose options come in front of a command. -/
def plain (name : String) (o : Options) (usual : Effect) (c : Call) : Wrapper :=
  match o.parse true (c.args.length + 1) c.args {} with
  | .error message => .itself (.misuse name 125 message)
  | .ok g => if g.words.isEmpty then .itself usual else .command none none g.words

/-- The words of an input: blanks separate them, and quotes and backslashes keep them together. -/
def inputWords : Nat → Bytes → Option Bytes → List Bytes → Except Bytes (List Bytes)
  | 0, _, _, acc => .ok acc.reverse
  | fuel + 1, s, current, acc =>
    let add (t : Bytes) : Option Bytes := some (current.getD [] ++ t)
    match s with
    | [] => .ok (match current with
        | some w => (w :: acc).reverse
        | none => acc.reverse)
    | b :: rest =>
      if b == Ascii.space || b == Ascii.tab || b == Ascii.newline then
        inputWords fuel rest none (match current with
          | some w => w :: acc
          | none => acc)
      else if b == Ascii.backslash then inputWords fuel (rest.drop 1) (add (rest.take 1)) acc
      else if b == Ascii.singleQuote || b == Ascii.doubleQuote then
        let inner := rest.takeWhile fun x => x != b && x != Ascii.newline
        let behind := rest.drop inner.length
        if behind.head? = some b then inputWords fuel (behind.drop 1) (add inner) acc
        else
          .error (utf8 "xargs: unmatched " ++ utf8 (if b == Ascii.singleQuote then "single" else "double")
            ++ utf8 " quote; by default quotes are special to xargs unless you use the -0 option")
      else inputWords fuel rest (add [b]) acc

/-- A list in runs of so many. -/
def chunksOf {α : Type} (size : Nat) : Nat → List α → List (List α)
  | 0, _ => []
  | _, [] => []
  | fuel + 1, l => l.take size :: chunksOf size fuel (l.drop size)

/-- A text with every occurrence of another replaced. -/
def replaceAll (mark new : Bytes) : Nat → Bytes → Bytes
  | 0, s => s
  | fuel + 1, s =>
    if mark.isEmpty then s
    else if Bytes.startsWith mark s then new ++ replaceAll mark new fuel (s.drop mark.length)
    else
      match s with
      | [] => []
      | b :: rest => b :: replaceAll mark new fuel rest

def xargs (c : Call) : Wrapper :=
  let o : Options :=
    { flags := "0rtx", valued := "nIdLPsaE"
      long := [("null", '0'), ("no-run-if-empty", 'r'), ("verbose", 't'), ("max-args", 'n'), ("replace", 'I'),
        ("delimiter", 'd'), ("max-lines", 'L'), ("max-procs", 'P'), ("arg-file", 'a'), ("exit", 'x')] }
  match o.parse true (c.args.length + 1) c.args {} with
  | .error message => .itself (.misuse "xargs" 1 message)
  | .ok g =>
    let command := if g.words.isEmpty then [utf8 "echo"] else g.words
    let text := c.input.bytes
    let divided (at_ : UInt8) : List Bytes :=
      let pieces := Bytes.split at_ text
      if pieces.getLast? = some [] then pieces.dropLast else pieces
    let items : Except Bytes (List Bytes) :=
      if g.has '0' then .ok (divided Ascii.nul)
      else
        match g.value? 'd' with
        | some d =>
          let octet := match d with
            | Ascii.backslash :: e :: _ => (Printf.escape? e).getD e
            | b :: _ => b
            | [] => Ascii.nul
          .ok (divided octet)
        | none =>
          if g.has 'I' then
            .ok ((plainLines text).filterMap fun l =>
              let l := l.dropWhile fun b => b == Ascii.space || b == Ascii.tab
              if l.isEmpty then none else some l)
          else inputWords (text.length + 1) text none []
    match items with
    | .error message => .itself { Effect.fail 1 message with reads := true }
    | .ok items =>
      let told := g.has 't'
      match g.value? 'I' with
      | some mark => .batches told (items.map fun item => command.map fun w => replaceAll mark item (w.length + 1) w)
      | none =>
        if items.isEmpty && g.has 'r' then .batches told []
        else if items.isEmpty then .batches told [command]
        else
          match (g.value? 'n').map fun n => (n, naturalOf n) with
          | some (_, some (n + 1)) => .batches told ((chunksOf (n + 1) (items.length + 1) items).map fun i => command ++ i)
          | some (n, some 0) =>
            .itself (.misuse "xargs" 1 (utf8 "value " ++ n ++ utf8 " for -n option should be >= 1"))
          | some (n, none) =>
            .itself (.misuse "xargs" 1 (utf8 "invalid number \"" ++ n ++ utf8 "\" for -n option"))
          | none =>
            match (g.value? 'L').bind naturalOf with
            | some (n + 1) =>
              let lines := (plainLines text).filter fun l => !l.all fun b => b == Ascii.space || b == Ascii.tab
              .batches told ((chunksOf (n + 1) (lines.length + 1) lines).map fun ls =>
                command ++ ls.flatMap fun l =>
                  (Bytes.split Ascii.space (l.map fun b => if b == Ascii.tab then Ascii.space else b)).filter
                    fun w => !w.isEmpty)
            | _ => .batches told [command ++ items]

/-- `perl` as far as it goes into the group of its parent and becomes the command in its arguments. -/
def perl (c : Call) : Wrapper :=
  match c.args with
  | flag :: text :: words =>
    let statements := (Bytes.split Ascii.semicolon text).map fun s => s.dropWhile (· == Ascii.space)
    if flag == utf8 "-e" && statements == [utf8 "setpgrp(0, getpgrp(getppid))", utf8 "exec @ARGV"] then .apart words
    else .itself { status := 255 }
  | _ => .itself { status := 255 }

/-- What a program that starts others asks for; none for every other program. -/
def find? (name : Bytes) (c : Call) : Option Wrapper :=
  let is (n : String) : Bool := name == utf8 n
  if is "env" then some (env c)
  else if is "timeout" then some (timeout c)
  else if is "xargs" then some (xargs c)
  else if is "perl" then some (perl c)
  else if is "nohup" then some (plain "nohup" { flags := "" } (.misuse "nohup" 125 (utf8 "missing operand")) c)
  else if is "nice" then
    some (plain "nice" { flags := "", valued := "n", long := [("adjustment", 'n')] } (.print (utf8 "0\n")) c)
  else if is "stdbuf" then
    some (plain "stdbuf" { flags := "", valued := "ioe" } (.misuse "stdbuf" 125 (utf8 "missing operand")) c)
  else if is "setsid" then
    some (plain "setsid" { flags := "cfw" } (.fail 1 (utf8 "setsid: no command specified")) c)
  else none

end Wrapper

end Stopwatch.Host
