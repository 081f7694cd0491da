import Stopwatch.Host.Tools.Sed.Run

/-!
The stream editor as a program: its options, its files, and what it says about wrong scripts.
-/

namespace Stopwatch.Host.Sed

def options : Options :=
  { flags := "nErsuz", valued := "efl"
    long := [("quiet", 'n'), ("silent", 'n'), ("regexp-extended", 'E'), ("separate", 's'), ("unbuffered", 'u'),
      ("null-data", 'z'), ("expression", 'e'), ("file", 'f'), ("line-length", 'l')] }

def usage : Bytes := utf8 "Usage: sed [OPTION]... \x7bscript-only-if-no-other-script\x7d [input-file]...\n"

/-- A part of a script: its text, and the file that it came from. -/
structure Fragment where
  text : Bytes
  file : Option Bytes := none

/-- Where in the fragments so many octets end, with the number of the fragment. -/
def locate : Nat → Nat → List Fragment → Nat × Nat × Option Fragment
  | consumed, index, [] => (index, consumed, none)
  | consumed, index, f :: rest =>
    if consumed ≤ f.text.length || rest.isEmpty then (index, consumed, some f)
    else locate (consumed - f.text.length - 1) (index + 1) rest

/-- What is said about a wrong script. -/
def complaint (fragments : List Fragment) (total : Nat) (e : ScriptError) : Bytes :=
  let consumed := match e.left with
    | some left => total - left
    | none => 0
  let (index, column, fragment) := locate consumed 1 fragments
  match fragment.bind Fragment.file with
  | some name =>
    let line := (((fragment.map Fragment.text).getD []).take column).filter (· == Ascii.newline)
    utf8 "sed: file " ++ name ++ utf8 " line " ++ Integer.ofNat (line.length + 1) ++ utf8 ": " ++ e.text
  | none =>
    utf8 "sed: -e expression #" ++ Integer.ofNat index ++ utf8 ", char " ++ Integer.ofNat column ++ utf8 ": " ++ e.text

/-- A label that is jumped to and stands nowhere. -/
def missingLabel? (program : List Command) : Option Bytes :=
  let labels := program.filterMap fun c =>
    match c.action with
    | .label n => some n
    | _ => none
  program.findSome? fun c =>
    match c.action with
    | .jump n => if n.isEmpty || labels.contains n then none else some n
    | .jumpIf _ n => if n.isEmpty || labels.contains n then none else some n
    | _ => none

/-- The lines of a text between separators, and whether the last one ends like the others. -/
def divided (separator : UInt8) (s : Bytes) : List Bytes × Bool :=
  if s.isEmpty then ([], true)
  else
    let pieces := Bytes.split separator s
    if pieces.getLast? = some [] then (pieces.dropLast, true) else (pieces, false)

/-- The bound on the steps of a script. -/
def stepBound : Nat := 1000000

/-- The number of a closed range that starts at line zero: it is open from the beginning. -/
def openAtStart (program : List Command) : List (Nat × Option Nat) :=
  program.zipIdx.filterMap fun (c, i) =>
    match c.first, c.second with
    | some (.line 0), some _ => some (i, none)
    | _, _ => none

/-- Runs a script over one text. -/
def edit (c : Call) (g : Given) (quiet : Bool) (program : List Command) (text : Bytes) : Nat × Work :=
  let separator := if g.has 'z' then Ascii.nul else Ascii.newline
  let (lines, closed) := divided separator text
  let files (path : Bytes) : Option Bytes := ((c.open? path).toOption).map Data.bytes
  rounds program stepBound (lines.length + stepBound) false
    { quiet, separator, input := lines, closed, open_ := openAtStart program, files }

/-- Writes the files that a script wrote. -/
def store (c : Call) (files : Files) (w : Work) : Files :=
  w.written.foldl (fun files (path, text) => files.write (c.path path) text) files

/-- Every file that a script writes, empty at first. -/
def outputs (program : List Command) : List Bytes :=
  program.filterMap fun c =>
    match c.action with
    | .write p => some p
    | .writeFirst p => some p
    | .substitute t => t.file
    | _ => none

def run (c : Call) (g : Given) (inPlace : Bool) (program : List Command) (quiet : Bool) (paths : List Bytes) : Effect :=
  let created := ((outputs program).filter fun p => p != utf8 "/dev/stdout" && p != utf8 "/dev/stderr").foldl
    (fun files p => files.write (c.path p) []) c.files
  let results := (if paths.isEmpty then [utf8 "-"] else paths).map fun path => (path, c.open? path)
  let failure (path text : Bytes) : Bytes :=
    if text == utf8 "Is a directory" then
      if inPlace then utf8 "sed: couldn't edit " ++ path ++ utf8 ": not a regular file\n"
      else utf8 "sed: read error on " ++ path ++ utf8 ": " ++ text ++ utf8 "\n"
    else utf8 "sed: can't read " ++ path ++ utf8 ": " ++ text ++ utf8 "\n"
  let err := results.flatMap fun (path, r) =>
    match r with
    | .error text => failure path text
    | .ok _ => []
  let grave := Bytes.includes (utf8 "read error") err || (inPlace && Bytes.includes (utf8 "couldn't") err)
  let failed := if err.isEmpty then 0 else if grave then 4 else 2
  let reads := paths.isEmpty || paths.contains (utf8 "-")
  let readable := results.filterMap fun (path, r) => r.toOption.map fun d => (path, (d.bounded 1).bytes)
  if inPlace then
    let (files, status, err) := readable.foldl (fun (files, status, err) (path, text) =>
      let (s, w) := edit c g quiet program text
      ((store c files w).write (c.path path) w.out.reverse.flatten, max status s, err)) (created, failed, err)
    { err, status, files := some files }
  else if g.has 's' then
    let (files, status, out) := readable.foldl (fun (files, status, out) (_, text) =>
      let (s, w) := edit c g quiet program text
      (store c files w, max status s, out ++ w.out.reverse.flatten)) (created, failed, ([] : Bytes))
    { out := Data.ofBytes out, err, status, reads, files := some files }
  else
    let texts := readable.map Prod.snd
    let joined := (texts.dropLast.flatMap fun t =>
      if t.isEmpty || t.getLast? = some Ascii.newline then t else t ++ [Ascii.newline]) ++ texts.getLast?.getD []
    let (status, w) := edit c g quiet program joined
    let trouble := match w.trouble with
      | some text => utf8 "sed: -e expression #1, char 0: " ++ text ++ utf8 "\n"
      | none => []
    { out := Data.ofBytes w.out.reverse.flatten
      err := err ++ trouble
      status := if status ≠ 0 then status else failed
      reads
      files := some (store c created w) }

/-- The words of a call without the option to edit files themselves, and whether it was there. -/
def withoutInPlace (args : List Bytes) : List Bytes × Bool :=
  let isIt (a : Bytes) : Bool := a == utf8 "-i" || Bytes.startsWith (utf8 "--in-place") a
  (args.filter fun a => !isIt a, args.any isIt)

def tool (c : Call) : Effect :=
  let (args, inPlace) := withoutInPlace c.args
  match options.parse false (args.length + 1) args {} with
  | .error message => { err := utf8 "sed: " ++ message ++ [Ascii.newline] ++ usage, status := 1 }
  | .ok g =>
    let given := g.options.filter fun o => o.1 = 'e' || o.1 = 'f'
    let fragments : Except Bytes (List Fragment × List Bytes) :=
      if given.isEmpty then
        match g.words with
        | script :: rest => .ok ([{ text := script }], rest)
        | [] => .error []
      else do
        let fragments ← given.mapM fun (letter, value) =>
          if letter = 'e' then (.ok { text := value } : Except Bytes Fragment)
          else
            match c.open? value with
            | .ok d =>
              let text := d.bytes
              .ok { text := if text.getLast? = some Ascii.newline then text.dropLast else text, file := some value }
            | .error text => .error (utf8 "sed: couldn't open file " ++ value ++ utf8 ": " ++ text)
        return (fragments, g.words)
    match fragments with
    | .error [] => { err := usage, status := 1 }
    | .error text => .fail 4 text
    | .ok (fragments, paths) =>
      let script := Bytes.join [Ascii.newline] (fragments.map Fragment.text)
      let quietMark := script.take 2 == utf8 "#n" && (script.length = 2 || script[2]? = some Ascii.newline)
      match commands (g.has 'E' || g.has 'r') (2 * script.length + 2) 0 [] script with
      | .error e => .fail 1 (complaint fragments script.length e)
      | .ok program =>
        match missingLabel? program with
        | some name => .fail 4 (utf8 "sed: can't find label for jump to `" ++ name ++ utf8 "'")
        | none =>
          if inPlace && paths.isEmpty then .fail 4 (utf8 "sed: no input files")
          else run c g inPlace program (g.has 'n' || quietMark) paths

end Stopwatch.Host.Sed
