import Stopwatch.Host.Data
import Stopwatch.Host.Files
import Stopwatch.Number.Leading

/-!
What a program of the system is started with and what it does, with the reading of its options and files.
-/

namespace Stopwatch.Host

/-- What a program is started with. -/
structure Call where
  args : List Bytes
  input : Data := []
  /-- Whether the input is a file, so that what is not used stays for others. -/
  rewinds : Bool := false
  directory : Parts := []
  files : Files := []
  environment : List (Bytes × Bytes) := []

/-- What a program does. -/
structure Effect where
  out : Data := []
  err : Bytes := []
  status : Nat := 0
  /-- Nanoseconds besides those of the start. -/
  lasts : Nat := 0
  /-- Whether the input is waited for. -/
  reads : Bool := false
  /-- What is left of an input that was read. -/
  leaves : Data := []
  files : Option Files := none

namespace Effect

def print (s : Bytes) : Effect := { out := Data.ofBytes s }

def fail (status : Nat) (message : Bytes) : Effect := { err := message ++ [Ascii.newline], status }

/-- A complaint about how a program was called. -/
def misuse (name : String) (status : Nat) (message : Bytes) : Effect :=
  .fail status (utf8 name ++ utf8 ": " ++ message ++ utf8 "\nTry '" ++ utf8 name
    ++ utf8 " --help' for more information.")

end Effect

/-- A text between quotes. -/
def quoted (s : Bytes) : Bytes := utf8 "'" ++ s ++ utf8 "'"

def missingText : Bytes := utf8 "No such file or directory"

namespace Call

def path (c : Call) (s : Bytes) : Parts := partsFrom c.directory s

/-- What stands at a path, or the complaint. -/
def find (c : Call) (path : Bytes) : Except Bytes Node :=
  if path.isEmpty then .error missingText
  else
    match c.files.find (c.path path) with
    | .ok .directory => .ok .directory
    | .ok node => if path.getLast? = some Ascii.slash then .error (utf8 "Not a directory") else .ok node
    | .error .notDirectory => .error (utf8 "Not a directory")
    | .error _ => .error missingText

/-- The content of a file for a program, or its complaint. -/
def read (c : Call) (path : Bytes) : Except Bytes Data :=
  match c.find path with
  | .ok (.file content _) => .ok (Data.ofBytes content)
  | .ok .directory => .error (utf8 "Is a directory")
  | .ok .zeroDevice => .ok [.endless [Ascii.nul]]
  | .ok (.standard 0) => .ok c.input
  | .ok _ => .ok []
  | .error text => .error text

/-- The input or a file, by the name that a program is given. -/
def open? (c : Call) (path : Bytes) : Except Bytes Data := if path == utf8 "-" then .ok c.input else c.read path

/-- The contents of files one after the other, the input if there are none, with the complaints about files. -/
def readAll (c : Call) (name : Bytes) (paths : List Bytes) : Data × Bytes × Bool :=
  let paths := if paths.isEmpty then [utf8 "-"] else paths
  let dash := utf8 "-"
  let results := paths.zipIdx.map fun (path, i) =>
    (path, if path == dash && (paths.take i).contains dash then Except.ok [] else c.open? path)
  (results.flatMap fun (_, r) => r.toOption.getD [],
    results.flatMap fun (path, r) =>
      match r with
      | .error text => name ++ utf8 ": " ++ path ++ utf8 ": " ++ text ++ utf8 "\n"
      | .ok _ => [],
    paths.contains (utf8 "-"))

end Call

/-- The lines of a text without their newlines. -/
def plainLines (s : Bytes) : List Bytes :=
  (linesOf s).map fun l => if l.getLast? = some Ascii.newline then l.dropLast else l

/-- Lines, each with a newline. -/
def unlines (lines : List Bytes) : Bytes := lines.flatMap fun l => l ++ [Ascii.newline]

def naturalOf (s : Bytes) : Option Nat := (Integer.magnitude 10 s).toOption

/-- The options that a program knows: letters without and with a value, and long names for letters. -/
structure Options where
  flags : String
  valued : String := ""
  long : List (String × Char) := []

/-- The options that were given, in order, with the words that are none. -/
structure Given where
  options : List (Char × Bytes) := []
  words : List Bytes := []

namespace Given

def has (g : Given) (letter : Char) : Bool := g.options.any fun o => o.1 = letter

/-- The value given last for a letter. -/
def value? (g : Given) (letter : Char) : Option Bytes := (g.options.reverse.find? fun o => o.1 = letter).map Prod.snd

end Given

namespace Options

/-- Reads the letters of one word, the rest of it or the next word being the value of a letter that wants one. -/
def letters (o : Options) : Bytes → List Bytes → List (Char × Bytes) → Except Bytes (List (Char × Bytes) × List Bytes)
  | [], rest, acc => .ok (acc, rest)
  | b :: more, rest, acc =>
    let letter := Char.ofNat b.toNat
    if o.flags.toList.contains letter then letters o more rest ((letter, []) :: acc)
    else if o.valued.toList.contains letter then
      if !more.isEmpty then .ok ((letter, more) :: acc, rest)
      else
        match rest with
        | v :: rest => .ok ((letter, v) :: acc, rest)
        | [] => .error (utf8 "option requires an argument -- " ++ quoted [b])
    else .error (utf8 "invalid option -- " ++ quoted [b])

/-- Reads one long option. -/
def longOption (o : Options) (word : Bytes) (rest : List Bytes) : Except Bytes ((Char × Bytes) × List Bytes) :=
  let (name, value) : Bytes × Option Bytes := match Bytes.cut Ascii.equals word with
    | some (name, v) => (name, some v)
    | none => (word, none)
  let exact := o.long.filter fun (n, _) => utf8 n == name
  let known := if exact.isEmpty then o.long.filter fun (n, _) => Bytes.startsWith name (utf8 n) else exact
  match known with
  | [] => .error (utf8 "unrecognized option " ++ quoted (utf8 "--" ++ word))
  | (full, letter) :: _ =>
    if o.valued.toList.contains letter then
      match value, rest with
      | some v, rest => .ok ((letter, v), rest)
      | none, v :: rest => .ok ((letter, v), rest)
      | none, [] => .error (utf8 "option " ++ quoted (utf8 "--" ++ utf8 full) ++ utf8 " requires an argument")
    else
      match value with
      | some _ => .error (utf8 "option " ++ quoted (utf8 "--" ++ utf8 full) ++ utf8 " doesn't allow an argument")
      | none => .ok ((letter, []), rest)

/-- Reads options among words. With `strict` the first word that is none ends them. -/
def parse (o : Options) (strict : Bool) : Nat → List Bytes → Given → Except Bytes Given
  | 0, _, g => .ok g
  | _, [], g => .ok { options := g.options.reverse, words := g.words.reverse }
  | fuel + 1, word :: rest, g =>
    if word == utf8 "--" then .ok { options := g.options.reverse, words := g.words.reverse ++ rest }
    else if Bytes.startsWith (utf8 "--") word then
      match o.longOption (word.drop 2) rest with
      | .error e => .error e
      | .ok (option, rest) => parse o strict fuel rest { g with options := option :: g.options }
    else if Bytes.startsWith (utf8 "-") word && 1 < word.length then
      match o.letters (word.drop 1) rest g.options with
      | .error e => .error e
      | .ok (options, rest) => parse o strict fuel rest { g with options }
    else if strict then .ok { options := g.options.reverse, words := g.words.reverse ++ word :: rest }
    else parse o strict fuel rest { g with words := word :: g.words }

end Options

/-- Reads the options of a call and goes on with them; a wrong option is complained about. -/
def Call.withOptions (c : Call) (name : String) (status : Nat) (o : Options) (k : Given → Effect) : Effect :=
  match o.parse false (c.args.length + 1) c.args {} with
  | .ok g => k g
  | .error message => .misuse name status message

end Stopwatch.Host
