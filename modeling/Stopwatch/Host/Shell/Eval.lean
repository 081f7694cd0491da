import Stopwatch.Host.Shell.Arithmetic
import Stopwatch.Host.Shell.Describe
import Stopwatch.Host.Shell.Fields
import Stopwatch.Host.Shell.Glob
import Stopwatch.Host.Wrapper

/-!
Running commands. Every function takes a bound on its steps and a shell and gives the shell afterwards; a command in
last place takes the place of the shell itself.
-/

namespace Stopwatch.Host.Shell

/-- How a word is expanded: into any number of fields, into one text, or into the value of a variable. -/
inductive Manner where
  | fields
  | text
  | value
  deriving DecidableEq

/-- The home directory that a name behind a tilde stands for. -/
def State.home? (s : State) (user : Bytes) : Option Bytes :=
  if user.isEmpty then s.value? (utf8 "HOME") else if user == utf8 "root" then some (utf8 "/root") else none

/-- The pieces of an unquoted literal with tildes replaced: one at the start of the word, and in values also behind
colons. A tilde that runs to the end of the literal counts only if the word ends there. -/
def State.tildes (s : State) (manner : Manner) (start last : Bool) (text : Bytes) : List Piece :=
  let inValue := manner = .value
  let chunks := if inValue then Bytes.split Ascii.colon text else [text]
  let count := chunks.length
  let pieces := chunks.zipIdx.map fun (chunk, i) =>
    let plain : List Piece := [.text chunk false]
    let starts := if i = 0 then start else true
    if starts && chunk.head? = some Ascii.tilde then
      let user := chunk.tail.takeWhile (· != Ascii.slash)
      let whole := user.length + 1 = chunk.length
      if whole && !(last || i + 1 < count) then plain
      else
        match s.home? user with
        | some home => [.text home true, .text (chunk.drop (user.length + 1)) false]
        | none => plain
    else plain
  (pieces.intersperse [.text [Ascii.colon] false]).flatten

/-- Whether a word has the form of an assignment. -/
def isAssignment : Word → Bool
  | .literal s false :: _ =>
    match Bytes.cut Ascii.equals s with
    | some (name, _) => isName name
    | none => false
  | _ => false

/-- The command that the words of a script name, past `command`. -/
def declares (fields : List Bytes) : Bool :=
  match fields.dropWhile (· == utf8 "command") with
  | name :: _ => name == utf8 "export" || name == utf8 "readonly" || name == utf8 "local"
  | [] => false

/-- A new shell's name, words and script, or what it says before it ends. -/
inductive ShellStart where
  | script (name : Bytes) (parameters : List Bytes) (text : Bytes) (options : Bytes)
  | input (name : Bytes) (parameters : List Bytes) (options : Bytes)
  | refusal (text : Bytes)

/-- How a shell starts with its words. -/
def State.shellStart (s : State) (name : Bytes) (args : List Bytes) : ShellStart :=
  let refusal (text : Bytes) : ShellStart := .refusal (name ++ utf8 ": 0: " ++ text ++ [Ascii.newline])
  match startup args {} with
  | .error text => refusal text
  | .ok (o, operands) =>
    if o.script then
      match operands with
      | [] => refusal (utf8 "-c requires an argument")
      | script :: rest => .script (rest.head?.getD name) rest.tail script o.options
    else if o.fromInput then .input name operands (0x73 :: o.options)
    else
      match operands with
      | [] => .input name [] (0x73 :: o.options)
      | path :: rest =>
        match (s.call []).read path with
        | .ok content => .script path rest content.bytes o.options
        | .error text =>
          let text := if text == missingText || text == utf8 "Not a directory" then utf8 "No such file" else text
          refusal (utf8 "cannot open " ++ path ++ utf8 ": " ++ text)

/-- The number of functions that can run inside each other. -/
def deepest : Nat := 1000

mutual

/-- The pieces of a part. -/
def partPieces : Nat → Manner → Part → State → List Piece × State
  | 0, _, _, s => ([], { s with flow := .cut })
  | fuel + 1, manner, part, s =>
    let quoted := part.isQuoted
    let one (text : Bytes) : List Piece := if quoted || manner ≠ .fields then [.text text quoted] else [.value text]
    let parameters (name : Bytes) : Option (List Piece) :=
      if name == utf8 "@" && quoted && manner = .fields then
        some ((s.parameters.map fun p => [Piece.text p true]).intersperse [.gap true]).flatten
      else if (name == utf8 "@" || name == utf8 "*") && !quoted && manner = .fields then
        some ((s.parameters.map fun p => [Piece.value p]).intersperse [.gap false]).flatten
      else none
    let unset (name : Bytes) : List Piece × State :=
      if s.has 'u' && name != utf8 "@" && name != utf8 "*" then ([], s.abort (name ++ utf8 ": parameter not set"))
      else (one [], s)
    match part with
    | .literal text quoted => ([.text text quoted], s)
    | .named name _ =>
      match parameters name with
      | some pieces => (pieces, s)
      | none =>
        match s.value? name with
        | some v => (one v, s)
        | none => unset name
    | .size name _ =>
      match s.value? name with
      | some v => (one (Integer.ofNat v.length), s)
      | none =>
        let (pieces, s) := unset name
        (if s.runs then one (utf8 "0") else pieces, s)
    | .modified name operator strong word _ =>
      let value := s.value? name
      let missing := match value with
        | none => true
        | some v => strong && v.isEmpty
      let present : List Piece × State := ((parameters name).getD (one (value.getD [])), s)
      let inPlace (_ : Unit) : List Piece × State :=
        let (pieces, s) := wordPieces fuel manner true word s
        let split (p : Piece) : Piece := match p with
          | .text t false => if manner = .fields then .value t else p
          | p => p
        (if quoted then pieces else pieces.map split, s)
      match operator with
      | .fallback => if missing then inPlace () else present
      | .replace => if missing then ([], s) else inPlace ()
      | .assign =>
        if missing then
          let (text, s) := wordText fuel .text word s
          if !s.runs then ([], s)
          else if !isName name then ([], s.abort (name ++ utf8 ": bad variable name"))
          else
            match s.set? name (Data.ofBytes text) with
            | some s => (one text, s)
            | none => ([], s.abort (name ++ utf8 ": is read only"))
        else present
      | .insist =>
        if missing then
          let (text, s) := wordText fuel .text word s
          let text := if word.isEmpty then
            (if strong then utf8 "parameter not set or null" else utf8 "parameter not set") else text
          ([], if s.runs then s.abort (name ++ utf8 ": " ++ text) else s)
        else present
      | cuts =>
        match value with
        | none => unset name
        | some v =>
          let (pieces, s) := wordPieces fuel .text true word s
          let pattern := patternOf pieces
          (one (if cuts = .dropStart then dropStart pattern strong v else dropEnd pattern strong v), s)
    | .command script _ =>
      let (data, s) := substitute fuel script s
      (one data.bytes, s)
    | .arithmetic expression _ =>
      let (text, s) := wordText fuel .text expression s
      if !s.runs then ([], s)
      else
        let small := s.bindings.filterMap fun (name, v) => if v.size < 64 then some (name, v.bytes) else none
        match Arithmetic.evaluate small text with
        | .ok (n, changed) =>
          (one (Integer.ofInt64 n), changed.foldl (fun s (name, v) =>
            if !s.runs then s
            else
              match s.set? name (Data.ofBytes v) with
              | some s => s
              | none => s.abort (name ++ utf8 ": is read only")) s)
        | .error .overflow => ([], { s with flow := .killed 8 })
        | .error trouble => ([], s.abort (trouble.message text))
    | .malformed => ([], s.abort (utf8 "Bad substitution"))

/-- The pieces of a word. -/
def wordPieces : Nat → Manner → Bool → Word → State → List Piece × State
  | 0, _, _, _, s => ([], { s with flow := .cut })
  | _, _, _, [], s => ([], s)
  | fuel + 1, manner, start, part :: rest, s =>
    let (pieces, s) := match part with
      | .literal text false => (s.tildes manner start rest.isEmpty text, s)
      | part => partPieces fuel manner part s
    if !s.runs then ([], s)
    else
      let (more, s) := wordPieces fuel manner false rest s
      (pieces ++ more, s)

/-- A word as one text, nothing split. -/
def wordText : Nat → Manner → Word → State → Bytes × State
  | 0, _, _, s => ([], { s with flow := .cut })
  | fuel + 1, manner, word, s =>
    let (pieces, s) := wordPieces fuel manner true word s
    (textOf pieces, s)

/-- The fields of words. -/
def allFields : Nat → List Word → List Bytes → State → List Bytes × State
  | 0, _, acc, s => (acc.reverse, { s with flow := .cut })
  | _, [], acc, s => (acc.reverse, s)
  | fuel + 1, word :: rest, acc, s =>
    if isAssignment word && declares acc.reverse then
      let (text, s) := assignmentText fuel word s
      if s.runs then allFields fuel rest (text :: acc) s else ([], s)
    else
      let (pieces, s) := wordPieces fuel .fields true word s
      if !s.runs then ([], s)
      else
        let fields := (fieldsOf s.separators pieces).flatMap fun f =>
          let pattern := f.pattern
          if !s.has 'f' && pattern.isOpen then
            match Glob.expand s.world.files s.directory pattern with
            | [] => [f.text]
            | paths => paths
          else [f.text]
        allFields fuel rest (fields.reverse ++ acc) s

/-- A word of the form of an assignment, its value expanded as one. -/
def assignmentText : Nat → Word → State → Bytes × State
  | 0, _, s => ([], { s with flow := .cut })
  | fuel + 1, word, s =>
    match word with
    | .literal text false :: rest =>
      match Bytes.cut Ascii.equals text with
      | some (name, value) =>
        let (v, s) := wordText fuel .value (.literal value false :: rest) s
        (name ++ [Ascii.equals] ++ v, s)
      | none => wordText fuel .text word s
    | word => wordText fuel .text word s

/-- What an embedded command prints. -/
def substitute : Nat → Command → State → Data × State
  | 0, _, s => ([], { s with flow := .cut })
  | fuel + 1, script, s =>
    let (pipe, s) := s.openPipe
    let child := (({ s with guarded := false } : State).fork.spend (processCost / 3)).point 1 (some (.pipe pipe))
    let child := endShell fuel (eval fuel true false script child)
    let before := s.status
    let s := s.reap child
    let s := notice fuel { s with embedded := s.status, status := before }
    let (data, s) := s.takePipe pipe
    let data := (data.mapBytes fun b => if b == Ascii.nul then [] else [b]).dropFinalNewlines
    let size := data.size
    let s := if 4096 ≤ size then (s.noteMemory (s.kilobytes + size / 1024)).spend (10 * size) else s
    (data, s)

/-- The value of an assignment. -/
def assigned : Nat → Word → State → Data × State
  | 0, _, s => ([], { s with flow := .cut })
  | fuel + 1, word, s =>
    match word with
    | [.command script _] => substitute fuel script s
    | [.literal [] true, .command script _] => substitute fuel script s
    | word =>
      let (text, s) := wordText fuel .value word s
      if textBound ≤ text.length then ([], { s.noteMemory (s.kilobytes + text.length / 1024) with flow := .cut })
      else (Data.ofBytes text, s)

/-- Sets variables in order. -/
def assignAll : Nat → List (Bytes × Word) → State → State
  | 0, _, s => { s with flow := .cut }
  | _, [], s => s
  | fuel + 1, (name, word) :: rest, s =>
    let (value, s) := assigned fuel word s
    if !s.runs then s
    else
      match s.set? name value with
      | some s => assignAll fuel rest s
      | none => s.abort (name ++ utf8 ": is read only")

/-- Applies redirections in order; a refused one is complained about. -/
def redirectAll : Nat → List Redirect → State → Bool × State
  | 0, _, s => (false, { s with flow := .cut })
  | _, [], s => (true, s)
  | fuel + 1, r :: rest, s =>
    let (text, s) := wordText fuel .text r.target s
    if !s.runs then (false, s)
    else
      let n := r.descriptor
      let refuse (reason : Bytes) : Bool × State := (false, (s.complain reason).setStatus 2)
      let cannot (what why : String) : Bool × State :=
        refuse (utf8 "cannot " ++ utf8 what ++ utf8 " " ++ text ++ utf8 ": " ++ utf8 why)
      let reading (source : Source) : State :=
        let (number, s) := s.openSource source
        s.point n (some (.stream number))
      let parts := partsFrom s.directory text
      let found := if text.isEmpty then .error .missing else s.world.files.find parts
      match r.kind, found with
      | .here, _ => redirectAll fuel rest (reading { data := Data.ofBytes text, rewinds := true })
      | .duplicate, _ =>
        if text == utf8 "-" then redirectAll fuel rest (s.point n none)
        else
          match text with
          | [d] =>
            if Ascii.isDigit d then
              match s.handle? (d.toNat - 48) with
              | some h => redirectAll fuel rest (s.point n (some h))
              | none => refuse (text ++ utf8 ": Bad file descriptor")
            else (false, s.abort (utf8 "Syntax error: Bad fd number"))
          | _ => (false, s.abort (utf8 "Syntax error: Bad fd number"))
      | _, .ok (.standard k) => redirectAll fuel rest (s.point n (s.handle? k))
      | .input, .ok (.file content _) =>
        redirectAll fuel rest (reading { data := Data.ofBytes content, rewinds := true })
      | .both, .ok (.file content _) =>
        redirectAll fuel rest (reading { data := Data.ofBytes content, rewinds := true })
      | .input, .ok .zeroDevice => redirectAll fuel rest (reading { data := [.endless [Ascii.nul]] })
      | .input, .ok _ => redirectAll fuel rest (s.point n (some .nowhere))
      | .input, .error _ => cannot "open" "No such file"
      | _, .ok .nullDevice => redirectAll fuel rest (s.point n (some .nowhere))
      | _, .ok .zeroDevice => redirectAll fuel rest (s.point n (some .nowhere))
      | _, .ok .directory => cannot "create" "Is a directory"
      | _, .error .notDirectory => cannot "create" "Directory nonexistent"
      | kind, found =>
        if (s.world.files.get? parts.dropLast).isNone || text.isEmpty then cannot "create" "Directory nonexistent"
        else
          match found, kind with
          | .ok _, .append => redirectAll fuel rest (s.point n (some (.file parts)))
          | .ok node, kind =>
            if kind = .output && s.has 'C' then cannot "create" "File exists"
            else
              let executable := match node with
                | .file _ x => x
                | _ => false
              let files := s.world.files.put parts (.file [] executable)
              redirectAll fuel rest ({ s with world := { s.world with files } }.point n (some (.file parts)))
          | .error _, _ =>
            let files := s.world.files.put parts (.file [] false)
            redirectAll fuel rest ({ s with world := { s.world with files } }.point n (some (.file parts)))

/-- Notices signals that were sent to the shell. -/
def notice : Nat → State → State
  | 0, s => { s with flow := .cut }
  | fuel + 1, s =>
    match s.world.signals.lookup s.pid with
    | none => s
    | some signal =>
      let s := { s with world := { s.world with signals := s.world.signals.filter fun x => x.1 ≠ s.pid } }
      match (if signal = 9 then none else s.traps.lookup signal) with
      | none => if [17, 18, 23, 28].contains signal then s else { s with flow := .killed signal }
      | some action =>
        if action.isEmpty then s
        else
          let status := s.status
          let after := runLines fuel false { rest := action } s
          if after.runs then after.setStatus status else after

/-- Ends a shell: its last action runs, and what is left is how it ended. -/
def endShell : Nat → State → State
  | 0, s => { s with flow := .cut }
  | fuel + 1, s =>
    match s.flow with
    | .killed _ => s
    | .cut => s
    | _ =>
      match s.traps.lookup 0 with
      | none => s.ended
      | some action =>
        let status := s.status
        let others := s.traps.filter fun t => t.1 ≠ 0
        let after := runLines fuel false { rest := action } { s with flow := .next, traps := others }
        match after.flow with
        | .exit => after.ended
        | _ => (after.setStatus status).ended

/-- Runs a text line by line. With `last` the last command takes the place of the shell. -/
def runLines : Nat → Bool → Input → State → State
  | 0, _, _, s => { s with flow := .cut }
  | fuel + 1, last, i, s =>
    match nextLine { i with aliases := s.aliases } with
    | .error e => ({ s with line := e.line }).abort (utf8 "Syntax error: " ++ e.text)
    | .ok none => s
    | .ok (some (c, rest)) =>
      let tail := last && rest.lines.rest.isEmpty
      let s := if s.has 'n' then s else eval fuel tail false c s
      if s.runs then runLines fuel last rest s else s

/-- Runs a shell in the process of the given state, to its end. -/
def runShell : Nat → Bytes → List Bytes → State → State
  | 0, _, _, s => { s with flow := .cut }
  | fuel + 1, name, args, s =>
    match s.shellStart name args with
    | .refusal text => ((s.write 2 (Data.ofBytes text)).setStatus 2).ended
    | .script name parameters text options =>
      endShell fuel (runLines fuel false { rest := text } (s.freshShell name parameters options))
    | .input name parameters options =>
      let fresh := (s.freshShell name parameters options).waitUntil (s.source 0).ready
      endShell fuel (runLines fuel false { rest := (s.source 0).data.bytes } (fresh.setSource 0 []))

/-- Runs a program in the process of the given state, to its end. -/
def program : Nat → Node → List Bytes → State → State
  | 0, _, _, s => { s with flow := .cut }
  | fuel + 1, node, words, s =>
    let name := words.head?.getD []
    let args := words.tail
    match node with
    | .tool t =>
      let is (n : String) : Bool := t == utf8 n
      if is "sh" || is "dash" || is "bash" then runShell fuel name args s
      else if is "kill" then notice fuel (s.killTool args)
      else
        match Wrapper.find? t (s.call args) with
        | none => s.perform ((runTool t (s.call args)).getD {})
        | some (.itself e) => s.perform e
        | some (.command environment directory words) =>
          let s := match environment with
            | none => s
            | some settings =>
              { s with
                bindings := settings.map fun (n, v) => (n, Data.ofBytes v)
                exported := (settings.map Prod.fst).reverse }
          match directory with
          | none => wrapped fuel t words s
          | some path =>
            match (s.call []).find path with
            | .ok .directory => wrapped fuel t words { s with directory := partsFrom s.directory path }
            | found =>
              let reason := match found with
                | .ok _ => utf8 "Not a directory"
                | .error text => text
              s.perform (.fail 125 (utf8 "env: cannot change directory to " ++ quoted path ++ utf8 ": " ++ reason))
        | some (.bounded span signal keeps words) =>
          let limit := s.now + span
          let inner := wrapped fuel t words s
          if 0 < span && limit < inner.now then
            let dies := signal = 9
            { inner with
              now := limit, status := if keeps then 128 + signal else 124
              flow := if s.world.horizon < limit then .cut else if dies then .killed 9 else .next
              world := { inner.world with
                outputs := inner.world.outputs.filter fun o => o.moment ≤ limit || o.owner ≠ s.pid } }
          else inner
        | some (.apart words) =>
          match (s.lookup (words.head?.getD [])) with
          | .ok (node, _) => program fuel node words s.leaveGroup
          | .error _ => s.setStatus 0
        | some (.batches told commands) =>
          wrappedAll fuel t told commands 0 ((s.waitUntil (s.source 0).ready).setSource 0 [])
    | .file content _ =>
      match interpreter? content with
      | none => endShell fuel (runLines fuel false { rest := content } (s.freshShell name args []))
      | some (path, extra) =>
        match s.world.files.find (partsFrom s.directory path) with
        | .ok (.tool t) => program fuel (.tool t) (path :: extra ++ [name] ++ args) s
        | _ => (s.complain (name ++ utf8 ": not found")).setStatus 127
    | _ => s.setStatus 126

/-- Runs the command that another program was given. -/
def wrapped : Nat → Bytes → List Bytes → State → State
  | 0, _, _, s => { s with flow := .cut }
  | fuel + 1, t, words, s =>
    match words with
    | [] => s.perform (runTool t (s.call []) |>.getD {})
    | name :: _ =>
      match s.lookup name with
      | .ok (node, _) => program fuel node words s
      | .error (status, _) =>
        let reason := if status = 126 then utf8 "Permission denied" else missingText
        let named := if t == utf8 "env" || t == utf8 "timeout" || t == utf8 "nice" || t == utf8 "nohup" then quoted name
          else name
        let front := if t == utf8 "timeout" || t == utf8 "nohup" then utf8 "failed to run command " else []
        s.perform (.fail status (t ++ utf8 ": " ++ front ++ named ++ utf8 ": " ++ reason))

/-- Runs the commands that another program makes, one after the other. Failures give one status together. -/
def wrappedAll : Nat → Bytes → Bool → List (List Bytes) → Nat → State → State
  | 0, _, _, _, _, s => { s with flow := .cut }
  | _, _, _, [], status, s => s.setStatus status
  | fuel + 1, t, told, words :: rest, status, s =>
    let s := if told then s.write 2 (Data.ofBytes (Bytes.join [Ascii.space] words ++ [Ascii.newline])) else s
    let child := wrapped fuel t words ((s.fork).spend processCost)
    let s := s.join child
    let failed := match child.flow with
      | .killed _ => 125
      | _ => if child.status = 0 then 0 else if child.status = 127 || child.status = 126 then child.status
        else if child.status = 255 then 124 else 123
    if !s.runs then s
    else if failed = 127 || failed = 126 || failed = 124 || failed = 125 then s.setStatus failed
    else wrappedAll fuel t told rest (max status failed) s

/-- Runs a program that the shell starts. In last place it takes over the shell's own process. -/
def external : Nat → Bool → List Bytes → State → State
  | 0, _, _, s => { s with flow := .cut }
  | fuel + 1, tail, words, s =>
    let name := words.head?.getD []
    match s.lookup name with
    | .error (status, text) => ((s.spend (processCost / 3)).complain text).setStatus status
    | .ok (node, path) =>
      let lacksInterpreter : Bool := match node with
        | .file content _ => ((interpreter? content).map fun (path, _) =>
            (s.world.files.find (partsFrom s.directory path)).toOption.isNone).getD false
        | _ => false
      let s := if name.contains Ascii.slash then s
        else { s with tracked := (name, path) :: s.tracked.filter fun t => t.1 != name }
      if lacksInterpreter then (s.complain (name ++ utf8 ": not found")).setStatus 127
      else if tail && s.traps.isEmpty then
        let r := program fuel node words ((s.noteMemory baseMemory).spend processCost)
        match r.flow with
        | .next => { r with flow := .exit, traps := [] }
        | _ => r
      else s.reap (program fuel node words ((s.fork).spend processCost))

/-- Runs one of the shell's own commands that run others. -/
def runner : Nat → Bool → Bytes → List Bytes → State → State
  | 0, _, _, _, s => { s with flow := .cut }
  | fuel + 1, tail, name, args, s =>
    let is (n : String) : Bool := name == utf8 n
    if is "eval" then
      let text := Bytes.join [Ascii.space] args
      { runLines fuel tail { rest := text } { s with status := 0, speaker := some name } with speaker := s.speaker }
    else if is "." then
      match args with
      | [] => s.setStatus 0
      | path :: _ =>
        let file : Option Bytes :=
          if path.contains Ascii.slash then some path
          else (Bytes.split Ascii.colon s.searchPath).findSome? fun directory =>
            let full := directory ++ [Ascii.slash] ++ path
            if ((s.call []).read full).isOk then some full else none
        match file with
        | none => s.refuse (utf8 ".: " ++ path ++ utf8 ": not found")
        | some file =>
          match (s.call []).read file with
          | .ok content =>
            let after := runLines fuel false { rest := content.bytes } { s with status := 0, speaker := some path }
            { after with
              speaker := s.speaker
              flow := if after.flow = .leaveFunction then .next else after.flow }
          | .error _ => s.refuse (utf8 ".: cannot open " ++ file ++ utf8 ": No such file")
    else if is "exec" then
      let args := if args.head? = some (utf8 "--") then args.tail else args
      if args.isEmpty then s.setStatus 0
      else
        match s.lookup (args.head?.getD []) with
        | .error (status, text) => { s.complain (utf8 "exec: " ++ text) with status, flow := .exit }
        | .ok _ =>
          let r := external fuel true args { s with traps := [] }
          if r.runs then { r with flow := .exit } else r
    else if is "type" then s.describe true args
    else
      match Builtin.options "pvV" "" (args.length + 1) args [] with
      | .error text => s.refuse (utf8 "command: " ++ text)
      | .ok (given, words) =>
        if given.any fun o => o.1 == 0x76 || o.1 == 0x56 then
          s.describe (given.any fun o => o.1 == 0x56) (words.take 1)
        else if words.isEmpty then s.setStatus 0
        else
          let after := invoke fuel tail words { s with functions := [] }
          { after with functions := s.functions, flow := if after.flow = .refused then .next else after.flow }

/-- Runs a command by its words. -/
def invoke : Nat → Bool → List Bytes → State → State
  | 0, _, _, s => { s with flow := .cut }
  | fuel + 1, tail, words, s =>
    let name := words.head?.getD []
    let args := words.tail
    match (if isSpecialBuiltin name then none else s.functions.lookup name) with
    | some inner =>
      if deepest ≤ s.depth then
        s.abort (utf8 "Maximum function recursion depth (" ++ Integer.ofNat deepest ++ utf8 ") reached")
      else
        let r := eval fuel false false inner
          { s.spend builtinCost with
            parameters := args, hidden := [], loops := 0, inFunction := true, depth := s.depth + 1, scan := {} }
        let r := r.hidden.foldl (fun r (name, before) =>
          match before with
          | some v => r.set name v
          | none => r.unset name) r
        { r with
          parameters := s.parameters
          hidden := s.hidden
          loops := s.loops
          inFunction := s.inFunction
          depth := s.depth
          scan := s.scan
          flow := if r.flow = .leaveFunction then .next else r.flow }
    | none =>
      let b := s.spend builtinCost
      if !b.runs then b
      else if Builtin.runners.any fun n => utf8 n == name then runner fuel tail name args b
      else
        match Builtin.find? name with
        | some command => { command args { b with speaker := none } with speaker := b.speaker }
        | none => external fuel tail words s

/-- Runs a command and then stops the shell if it failed and failures count. -/
def eval : Nat → Bool → Bool → Command → State → State
  | 0, _, _, _, s => { s with flow := .cut }
  | fuel + 1, tail, tested, c, s =>
    let guarded := s.guarded
    let tested := tested || guarded
    let checked (s : State) : State :=
      let s := { s with guarded }
      if s.has 'e' && s.status ≠ 0 && !tested && s.runs then { s with flow := .exit } else s
    match (if s.has 'n' then .empty else c) with
    | .empty => s
    | .simple assignments words redirects line =>
      let before := s
      let (fields, s) := allFields fuel words [] { s with line, embedded := 0 }
      if !s.runs then s
      else
        let name := fields.head?.getD []
        let special := isSpecialBuiltin name
        let ends := special || name == utf8 "local"
        let (ok, r) := redirectAll fuel redirects s
        if !ok then
          let s := { s with world := r.world, status := r.status, flow := r.flow }
          if special && s.runs then { s with flow := .exit } else checked s
        else
          let names := assignments.map Prod.fst
          let inner := assignAll fuel assignments r
          let trace (s : State) (inner : State) : State :=
            if s.has 'x' then
              let set := names.map fun n => n ++ [Ascii.equals] ++ ((inner.get? n).map Data.bytes).getD []
              let mark := ((s.get? (utf8 "PS4")).map Data.bytes).getD []
              let line := Data.ofBytes (mark ++ Bytes.join [Ascii.space] (set ++ fields) ++ [Ascii.newline])
              { (({ inner with handles := s.handles }).write 2 line) with handles := inner.handles }
            else inner
          if fields.isEmpty then
            let inner := if names.isEmpty then inner else trace s inner
            let s := { inner with handles := s.handles }
            checked (if s.runs then s.setStatus s.embedded else s)
          else if !inner.runs then
            { s with world := inner.world, status := inner.status, flow := inner.flow, now := inner.now }
          else
            let added := names.filter fun n => !inner.exported.contains n
            let inner := trace s { inner with exported := added ++ inner.exported }
            let after := notice fuel (invoke fuel tail fields { inner with guarded := tested })
            let after : State := { after with guarded }
            let after := if after.flow = .refused then { after with flow := if ends then .exit else .next } else after
            let after := { after with handles := if fields == [utf8 "exec"] then after.handles else s.handles }
            if special then
              checked { after with exported := after.exported.filter fun n =>
                before.exported.contains n || !names.contains n || name == utf8 "export" }
            else
              let restored := names.foldl (fun a n =>
                match s.get? n with
                | some v => { a with bindings := (n, v) :: a.bindings.filter fun b => b.1 != n }
                | none => { a with bindings := a.bindings.filter fun b => b.1 != n }) after
              checked { restored with
                exported := after.exported.filter fun n => s.exported.contains n || !names.contains n }
    | .pipeline negated cs =>
      let s := notice fuel (match cs with
        | [c] => eval fuel false true c s
        | cs => pipelineRun fuel cs s.now s.now none { s with guarded := tested || negated })
      let s := { s with guarded }
      let s := if negated && s.runs then s.setStatus (if s.status = 0 then 1 else 0) else s
      if negated then s else checked s
    | .and a b =>
      let s := eval fuel false true a s
      if s.runs && s.status = 0 then eval fuel tail tested b s else s
    | .or a b =>
      let s := eval fuel false true a s
      if s.runs && s.status ≠ 0 then eval fuel tail tested b s else s
    | .seq a b =>
      let s := eval fuel false tested a s
      if s.runs then eval fuel tail tested b s else s
    | .background a =>
      let child := ({ s with guarded := tested } : State).fork.point 0 (some .nowhere)
      let ended := endShell fuel (eval fuel true false a (child.spend (processCost / 3)))
      let finish := if ended.flow = .cut then s.world.horizon + 1 else ended.now
      let status := match ended.flow with
        | .killed signal => 128 + signal
        | _ => ended.status
      let world := ended.world
      let redirects := match a with
        | .simple _ _ redirects _ => redirects
        | .redirected _ redirects _ => redirects
        | _ => []
      let holds := (redirectAll fuel redirects child).2.holdsOutput
      let world := if holds then { world with holders := (child.pid, finish) :: world.holders } else world
      { s with
        world
        jobs := { pid := child.pid, finish, status } :: s.jobs
        lastJob := some child.pid
        status := 0 }.spend (processCost / 3)
    | .subshell a =>
      checked (notice fuel (s.reap (endShell fuel (eval fuel true tested a ((s.fork).spend (processCost / 3))))))
    | .group a => eval fuel tail tested a s
    | .redirected a redirects line =>
      let (ok, r) := redirectAll fuel redirects { s with line }
      if !ok then checked { s with world := r.world, status := 2, flow := r.flow }
      else
        let after := eval fuel false tested a r
        { after with handles := s.handles }
    | .ifThen condition inner alternative =>
      let s := eval fuel false true condition s
      if !s.runs then s
      else if s.status = 0 then eval fuel tail tested inner s
      else
        match alternative with
        | .empty => s.setStatus 0
        | other => eval fuel tail tested other s
    | .loop sense condition inner =>
      { loopRun fuel sense tested condition inner 0 { s with loops := s.loops + 1 } with loops := s.loops }
    | .forEach name words inner line =>
      let (values, s) := match words with
        | none => (s.parameters, s)
        | some words => allFields fuel words [] { s with line }
      if !s.runs then s
      else if values.isEmpty then s.setStatus 0
      else { forRun fuel tested name values inner { s with loops := s.loops + 1 } with loops := s.loops }
    | .select word arms line =>
      let (text, s) := wordText fuel .text word { s with line }
      if s.runs then armRun fuel tail tested text arms s else s
    | .define name inner =>
      { s with functions := (name, inner) :: s.functions.filter fun f => f.1 != name, status := 0 }

/-- The rounds of a loop; the number is the status of the last round. -/
def loopRun : Nat → Bool → Bool → Command → Command → Nat → State → State
  | 0, _, _, _, _, _, s => { s with flow := .cut }
  | fuel + 1, sense, tested, condition, inner, status, s =>
    let s := eval fuel false true condition s
    match s.flow with
    | .leaveLoop n => { s with flow := if n ≤ 1 then .next else .leaveLoop (n - 1) }
    | .nextRound n =>
      if n ≤ 1 then loopRun fuel sense tested condition inner s.status { s with flow := .next }
      else { s with flow := .nextRound (n - 1) }
    | .next =>
      if (s.status = 0) != sense then s.setStatus status
      else
        let s := eval fuel false tested inner s
        match s.flow with
        | .next => loopRun fuel sense tested condition inner s.status s
        | .leaveLoop n => { s with flow := if n ≤ 1 then .next else .leaveLoop (n - 1) }
        | .nextRound n =>
          if n ≤ 1 then loopRun fuel sense tested condition inner s.status { s with flow := .next }
          else { s with flow := .nextRound (n - 1) }
        | _ => s
    | _ => s

/-- The rounds of a loop over values. -/
def forRun : Nat → Bool → Bytes → List Bytes → Command → State → State
  | 0, _, _, _, _, s => { s with flow := .cut }
  | _, _, _, [], _, s => s
  | fuel + 1, tested, name, value :: rest, inner, s =>
    match s.set? name (Data.ofBytes value) with
    | none => s.abort (name ++ utf8 ": is read only")
    | some s =>
      let s := eval fuel false tested inner s
      match s.flow with
      | .next => forRun fuel tested name rest inner s
      | .leaveLoop n => { s with flow := if n ≤ 1 then .next else .leaveLoop (n - 1) }
      | .nextRound n =>
        if n ≤ 1 then forRun fuel tested name rest inner { s with flow := .next }
        else { s with flow := .nextRound (n - 1) }
      | _ => s

/-- The first arm of a selection whose pattern fits. -/
def armRun : Nat → Bool → Bool → Bytes → List (List Word × Command) → State → State
  | 0, _, _, _, _, s => { s with flow := .cut }
  | _, _, _, _, [], s => s.setStatus 0
  | fuel + 1, tail, tested, text, (patterns, inner) :: rest, s =>
    let (fits, s) := patternFits fuel text patterns s
    if !s.runs then s
    else if fits then
      match inner with
      | .empty => s.setStatus 0
      | inner => eval fuel tail tested inner s
    else armRun fuel tail tested text rest s

def patternFits : Nat → Bytes → List Word → State → Bool × State
  | 0, _, _, s => (false, { s with flow := .cut })
  | _, _, [], s => (false, s)
  | fuel + 1, text, word :: rest, s =>
    let (pieces, s) := wordPieces fuel .text true word s
    if (patternOf pieces).covers text then (true, s) else patternFits fuel text rest s

/-- The commands of a pipeline, all started at one moment; each reads what the one before it printed. -/
def pipelineRun : Nat → List Command → Nat → Nat → Option Handle → State → State
  | 0, _, _, _, _, s => { s with flow := .cut }
  | _, [], _, finish, _, s => s.waitUntil finish
  | fuel + 1, c :: rest, start, finish, input, s =>
    let lastOne := rest.isEmpty
    let (pipe, s) := if lastOne then (0, s) else s.openPipe
    let child : State := { s.fork with now := start }
    let child : State := match input with
      | some h => child.point 0 (some h)
      | none => child
    let child := if lastOne then child else child.point 1 (some (.pipe pipe))
    let ended := endShell fuel (eval fuel true false c (child.spend (processCost / 3)))
    let cut := ended.flow = .cut
    let s : State := { s with world := ended.world }
    if lastOne then
      let s := s.reap { ended with now := max finish ended.now, flow := if cut then .cut else ended.flow }
      if s.world.horizon < s.now then { s with flow := .cut } else s
    else
      let (data, s) := s.takePipe pipe
      let finish := if data.isFinite then max finish (if cut then s.world.horizon + 1 else ended.now) else finish
      let (number, s) := s.openSource { data, ready := if data.isFinite then ended.now else start }
      pipelineRun fuel rest start finish (some (.stream number)) s

end

end Stopwatch.Host.Shell
