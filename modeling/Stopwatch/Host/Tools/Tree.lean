import Stopwatch.Host.Call

/-!
Programs that show and change the files of the host.
-/

namespace Stopwatch.Host

/-- The last part of a path. -/
def baseName (s : Bytes) : Bytes :=
  let trimmed := (s.reverse.dropWhile (· == Ascii.slash)).reverse
  if trimmed.isEmpty then (if s.isEmpty then [] else [Ascii.slash])
  else (Bytes.split Ascii.slash trimmed).getLast?.getD []

/-- A path without its last part. -/
def directoryName (s : Bytes) : Bytes :=
  let trimmed := (s.reverse.dropWhile (· == Ascii.slash)).reverse
  match Bytes.cutLast Ascii.slash trimmed with
  | none => if trimmed.isEmpty && !s.isEmpty then [Ascii.slash] else utf8 "."
  | some (before, _) =>
    let before := (before.reverse.dropWhile (· == Ascii.slash)).reverse
    if before.isEmpty then [Ascii.slash] else before

/-- A text without an ending, unless that is all of it. -/
def withoutEnding (ending s : Bytes) : Bytes :=
  if ending.length < s.length && Bytes.endsWith ending s then s.take (s.length - ending.length) else s

def basenameTool (c : Call) : Effect :=
  let o : Options := { flags := "az", valued := "s", long := [("multiple", 'a'), ("suffix", 's'), ("zero", 'z')] }
  match o.parse true (c.args.length + 1) c.args {} with
  | .error message => .misuse "basename" 1 message
  | .ok g =>
    match g.words with
    | [] => .misuse "basename" 1 (utf8 "missing operand")
    | words =>
      if g.has 'a' || g.has 's' then
        .print (unlines (words.map fun w => withoutEnding ((g.value? 's').getD []) (baseName w)))
      else
        match words with
        | _ :: _ :: extra :: _ => .misuse "basename" 1 (utf8 "extra operand " ++ quoted extra)
        | path :: rest => .print (withoutEnding (rest.head?.getD []) (baseName path) ++ [Ascii.newline])
        | [] => {}

def dirnameTool (c : Call) : Effect :=
  c.withOptions "dirname" 1 { flags := "z" } fun g =>
    if g.words.isEmpty then .misuse "dirname" 1 (utf8 "missing operand")
    else .print (unlines (g.words.map directoryName))

namespace Listing

/-- What is shown of directories. -/
structure Style where
  hidden : Bool := false
  /-- Whether the directory itself and the one above are shown too. -/
  dots : Bool := false
  itself : Bool := false
  reversed : Bool := false
  recursive : Bool := false
  /-- Marks behind the names of directories, and of programs too. -/
  slashes : Bool := false
  marks : Bool := false
  quotes : Bool := false
  commas : Bool := false

/-- A name as it is shown. -/
def Style.name (s : Style) (node : Option Node) (name : Bytes) : Bytes :=
  let mark := match node with
    | some .directory => if s.slashes || s.marks then utf8 "/" else []
    | some (.file _ true) => if s.marks then utf8 "*" else []
    | some (.tool _) => if s.marks then utf8 "*" else []
    | _ => []
  (if s.quotes then utf8 "\"" ++ name ++ utf8 "\"" else name) ++ mark

def Style.lines (s : Style) (names : List Bytes) : Bytes :=
  if s.commas && !names.isEmpty then Bytes.join (utf8 ", ") names ++ [Ascii.newline] else unlines names

/-- The names in a directory that are shown, in order. -/
def Style.entries (s : Style) (files : Files) (parts : Parts) : List Bytes :=
  let all := (files.entries parts).filter fun n => s.hidden || n.head? ≠ some Ascii.dot
  let all := (if s.dots then [utf8 ".", utf8 ".."] else []) ++ all
  let names := all.map fun n => s.name (files.get? (stepTo parts n)) n
  if s.reversed then names.reverse else names

/-- A directory and those below it, each under its path. -/
def Style.tree (s : Style) (files : Files) : Nat → Bytes → Parts → Bytes
  | 0, _, _ => []
  | fuel + 1, path, parts =>
    let below := (files.entries parts).filter fun n =>
      (s.hidden || n.head? ≠ some Ascii.dot) && files.get? (parts ++ [n]) = some .directory
    path ++ utf8 ":\n" ++ s.lines (s.entries files parts) ++ (below.flatMap fun n =>
      [Ascii.newline] ++ s.tree files fuel (path ++ [Ascii.slash] ++ n) (parts ++ [n]))

def options : Options :=
  { flags := "aA1drRpFQmCxltSUhsngoGkLNXcufiqB", valued := "wIT"
    long := [("all", 'a'), ("almost-all", 'A'), ("directory", 'd'), ("reverse", 'r'), ("recursive", 'R'),
      ("classify", 'F'), ("quote-name", 'Q'), ("width", 'w')] }

def tool (c : Call) : Effect :=
  c.withOptions "ls" 2 options fun g =>
    let style : Style :=
      { hidden := g.has 'a' || g.has 'A'
        dots := g.has 'a'
        itself := g.has 'd'
        reversed := g.has 'r'
        recursive := g.has 'R'
        slashes := g.has 'p'
        marks := g.has 'F'
        quotes := g.has 'Q'
        commas := g.has 'm' }
    let words := if g.words.isEmpty then [utf8 "."] else g.words
    let sorted := (if g.has 'U' || g.has 'f' then words else words.mergeSort fun a b => a ≤ b)
    let sorted := if style.reversed then sorted.reverse else sorted
    let err := words.flatMap fun p =>
      match c.find p with
      | .error text => utf8 "ls: cannot access " ++ quoted p ++ utf8 ": " ++ text ++ utf8 "\n"
      | .ok _ => []
    let isDirectory (p : Bytes) : Bool := (c.find p).toOption = some .directory
    let plain := sorted.filter fun p => (c.find p).isOk && (style.itself || !isDirectory p)
    let directories := if style.itself then [] else sorted.filter isDirectory
    let first := style.lines (plain.map fun p => style.name ((c.find p).toOption) p)
    let blocks := directories.map fun p =>
      if style.recursive then style.tree c.files (c.files.length + 1) p (c.path p)
      else (if words.length = 1 then [] else p ++ utf8 ":\n") ++ style.lines (style.entries c.files (c.path p))
    let blocks := if plain.isEmpty then blocks else first :: blocks
    { out := Data.ofBytes (Bytes.join [Ascii.newline] blocks), err, status := if err.isEmpty then 0 else 2 }

end Listing

/-- A change of files, path by path, with what is said on the way. -/
structure Change where
  files : Files
  out : Bytes := []
  err : Bytes := []

namespace Change

def complain (x : Change) (text : Bytes) : Change := { x with err := x.err ++ text ++ [Ascii.newline] }

def effect (x : Change) : Effect :=
  { out := Data.ofBytes x.out, err := x.err, status := if x.err.isEmpty then 0 else 1, files := some x.files }

end Change

/-- Why nothing can be made at a path; none if something can. -/
def obstacle (files : Files) (parts : Parts) : Option Bytes :=
  match files.find parts.dropLast with
  | .ok .directory => none
  | .ok _ => some (utf8 "Not a directory")
  | .error .notDirectory => some (utf8 "Not a directory")
  | .error _ => some missingText

def mkdirTool (c : Call) : Effect :=
  let o : Options := { flags := "pv", valued := "m", long := [("parents", 'p'), ("verbose", 'v'), ("mode", 'm')] }
  c.withOptions "mkdir" 1 o fun g =>
    if g.words.isEmpty then .misuse "mkdir" 1 (utf8 "missing operand")
    else
      (g.words.foldl (fun (x : Change) path =>
        let parts := c.path path
        let refuse (what reason : Bytes) : Change :=
          x.complain (utf8 "mkdir: cannot create directory " ++ quoted what ++ utf8 ": " ++ reason)
        if g.has 'p' then
          match (List.range (parts.length + 1)).findSome? fun i =>
            match x.files.get? (parts.take i) with
            | some .directory => none
            | some _ => some i
            | none => none with
          | some i =>
            if i = parts.length then refuse path (utf8 "File exists")
            else refuse (directoryName path) (utf8 "Not a directory")
          | none => if (x.files.get? parts).isSome then x else { x with files := x.files.makeDirectory parts }
        else if (x.files.get? parts).isSome then refuse path (utf8 "File exists")
        else
          match (if path.isEmpty then some missingText else obstacle x.files parts) with
          | some reason => refuse path reason
          | none =>
            { x with
              files := x.files.makeDirectory parts
              out := x.out
                ++ (if g.has 'v' then utf8 "mkdir: created directory " ++ quoted path ++ [Ascii.newline] else []) })
        { files := c.files }).effect

def rmdirTool (c : Call) : Effect :=
  let o : Options := { flags := "pv", long := [("parents", 'p'), ("verbose", 'v')] }
  c.withOptions "rmdir" 1 o fun g =>
    if g.words.isEmpty then .misuse "rmdir" 1 (utf8 "missing operand")
    else
      let drop (x : Change) (path : Bytes) : Change :=
        let refuse (reason : Bytes) : Change :=
          x.complain (utf8 "rmdir: failed to remove " ++ quoted path ++ utf8 ": " ++ reason)
        match ({ c with files := x.files } : Call).find path with
        | .error text => refuse text
        | .ok .directory =>
          if (x.files.entries (c.path path)).isEmpty then { x with files := x.files.remove (c.path path) }
          else refuse (utf8 "Directory not empty")
        | .ok _ => refuse (utf8 "Not a directory")
      (g.words.foldl (fun (x : Change) path =>
        if g.has 'p' then
          let pieces := (Bytes.split Ascii.slash path).filter fun p => !p.isEmpty
          (List.range pieces.length).foldl (fun x i => drop x (Bytes.join [Ascii.slash] (pieces.take (pieces.length - i)))) x
        else drop x path) { files := c.files }).effect

def rmTool (c : Call) : Effect :=
  let o : Options :=
    { flags := "rRfdviI"
      long := [("recursive", 'r'), ("force", 'f'), ("dir", 'd'), ("verbose", 'v'), ("interactive", 'i')] }
  c.withOptions "rm" 1 o fun g =>
    if g.words.isEmpty then if g.has 'f' then {} else .misuse "rm" 1 (utf8 "missing operand")
    else
      let recursive := g.has 'r' || g.has 'R'
      (g.words.foldl (fun (x : Change) path =>
        let parts := c.path path
        let refuse (reason : Bytes) : Change :=
          x.complain (utf8 "rm: cannot remove " ++ quoted path ++ utf8 ": " ++ reason)
        let gone (kind : String) : Change :=
          { x with
            files := x.files.remove parts
            out := x.out ++ (if g.has 'v' then utf8 kind ++ quoted path ++ [Ascii.newline] else []) }
        match ({ c with files := x.files } : Call).find path with
        | .error text => if g.has 'f' then x else refuse text
        | .ok .directory =>
          if baseName path == utf8 "." || baseName path == utf8 ".." then
            x.complain (utf8 "rm: refusing to remove '.' or '..' directory: skipping " ++ quoted path)
          else if recursive then gone "removed directory "
          else if g.has 'd' then
            if (x.files.entries parts).isEmpty then gone "removed directory " else refuse (utf8 "Directory not empty")
          else refuse (utf8 "Is a directory")
        | .ok _ => gone "removed ") { files := c.files }).effect

def touchTool (c : Call) : Effect :=
  let o : Options := { flags := "acmfh", valued := "drt", long := [("no-create", 'c'), ("date", 'd'), ("reference", 'r')] }
  c.withOptions "touch" 1 o fun g =>
    if g.words.isEmpty then .misuse "touch" 1 (utf8 "missing file operand")
    else
      (g.words.foldl (fun (x : Change) path =>
        let parts := c.path path
        if !path.isEmpty && (x.files.find parts).isOk then x
        else if g.has 'c' then x
        else
          match (if path.isEmpty then some missingText else obstacle x.files parts) with
          | some reason => x.complain (utf8 "touch: cannot touch " ++ quoted path ++ utf8 ": " ++ reason)
          | none => { x with files := x.files.write parts [] }) { files := c.files }).effect

/-- Copies what stands at a path, with everything below it. -/
def copyTree (files : Files) (source target : Parts) : Files :=
  let copied := files.filterMap fun (p, node) =>
    if source.isPrefixOf p then some (target ++ p.drop source.length, node) else none
  let files := if (files.get? source) = some .directory then
    (if (files.get? target).isSome then files else files.makeDirectory target) else files
  copied.foldl (fun files (p, node) => files.put p node) files

/-- Copies or moves files; a directory in last place takes them in. -/
def transferTool (moves : Bool) (c : Call) : Effect :=
  let name := if moves then "mv" else "cp"
  let o : Options := { flags := if moves then "finuvT" else "rRafpiunvdLPT", valued := "t", long := [("recursive", 'r')] }
  c.withOptions name 1 o fun g =>
    let say (text : Bytes) : Bytes := utf8 name ++ utf8 ": " ++ text
    match g.words.getLast?, g.words.dropLast with
    | none, _ => .misuse name 1 (utf8 "missing file operand")
    | some only, [] => .misuse name 1 (utf8 "missing destination file operand after " ++ quoted only)
    | some target, sources =>
      let intoDirectory := (c.find target).toOption = some .directory
      if 1 < sources.length && !intoDirectory then
        let reason := match c.find target with
          | .ok _ => utf8 "Not a directory"
          | .error text => text
        .fail 1 (say (utf8 "target " ++ quoted target ++ utf8 ": " ++ reason))
      else
        let recursive := g.has 'r' || g.has 'R' || g.has 'a'
        (sources.foldl (fun (x : Change) path =>
          let source := c.path path
          let place := if intoDirectory then c.path target ++ [baseName path] else c.path target
          let shown := if intoDirectory then
            (if target.getLast? = some Ascii.slash then target else target ++ [Ascii.slash]) ++ baseName path else target
          match ({ c with files := x.files } : Call).find path with
          | .error text => x.complain (say (utf8 "cannot stat " ++ quoted path ++ utf8 ": " ++ text))
          | .ok node =>
            if node = .directory && !moves && !recursive then
              x.complain (say (utf8 "-r not specified; omitting directory " ++ quoted path))
            else if source == place then
              x.complain (say (quoted path ++ utf8 " and " ++ quoted shown ++ utf8 " are the same file"))
            else
              match obstacle x.files place with
              | some reason =>
                if moves then
                  x.complain (say (utf8 "cannot move " ++ quoted path ++ utf8 " to " ++ quoted shown ++ utf8 ": " ++ reason))
                else x.complain (say (utf8 "cannot create regular file " ++ quoted shown ++ utf8 ": " ++ reason))
              | none =>
                let copied := copyTree x.files source place
                { x with files := if moves then copied.remove source else copied }) { files := c.files }).effect

/-- Whether a mode lets a file be started, given whether it could be before; none if it is no mode. -/
def modeExecutable? (before : Bool) (mode : Bytes) : Option Bool :=
  if !mode.isEmpty && mode.all fun b => 0x30 ≤ b && b ≤ 0x37 then
    let n := mode.foldl (fun n d => n * 8 + (d.toNat - 48)) 0
    some (n / 64 % 2 = 1 || n / 8 % 2 = 1 || n % 2 = 1)
  else
    (Bytes.split Ascii.comma mode).foldlM (fun x clause => do
      let rest := clause.dropWhile fun b => (utf8 "ugoa").contains b
      let op ← rest.head?
      let perms := rest.tail
      if !(utf8 "+-=").contains op || !perms.all fun b => (utf8 "rwxXstugo").contains b then none
      else
        let has := perms.contains 0x78
        some (if op == Ascii.plus then x || has else if op == Ascii.minus then x && !has else has)) before

def chmodTool (c : Call) : Effect :=
  let given := c.args.filter fun a => a != utf8 "-R" && a != utf8 "-v" && a != utf8 "-f"
  match given with
  | [] => .misuse "chmod" 1 (utf8 "missing operand")
  | [mode] => .misuse "chmod" 1 (utf8 "missing operand after " ++ quoted mode)
  | mode :: paths =>
    if (modeExecutable? false mode).isNone then .misuse "chmod" 1 (utf8 "invalid mode: " ++ quoted mode)
    else
      (paths.foldl (fun (x : Change) path =>
        match ({ c with files := x.files } : Call).find path with
        | .error text => x.complain (utf8 "chmod: cannot access " ++ quoted path ++ utf8 ": " ++ text)
        | .ok (.file content before) =>
          { x with files := x.files.put (c.path path) (.file content ((modeExecutable? before mode).getD before)) }
        | .ok _ => x) { files := c.files }).effect

end Stopwatch.Host
