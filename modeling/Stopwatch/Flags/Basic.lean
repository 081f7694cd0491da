import Stopwatch.Flags.Duration

/-!
Command-line flags. A flag is written `--name value` or `--name=value`; a truth value may stand alone. Flags and plain
words mix freely up to a word `--`, after which all words are plain.
-/

namespace Stopwatch.Flags

/-- What a flag takes. -/
inductive Kind where
  | text
  | int
  | truth
  | duration
  deriving DecidableEq, Repr

/-- A flag that is understood, perhaps with a letter for short. -/
structure Spec where
  name : Bytes
  kind : Kind
  letter : Option UInt8 := none
  deriving DecidableEq, Repr

/-- The value of a flag. -/
inductive Given where
  | text (s : Bytes)
  | int (n : Int64)
  | truth (b : Bool)
  | duration (ns : Int64)
  deriving DecidableEq, Repr

inductive Error where
  | badSyntax (word : Bytes)
  | unknown (name : Bytes)
  | unknownLetter (letters : Bytes)
  | needsArgument (word : Bytes)
  | badValue (spec : Spec) (value reason : Bytes)
  | help
  deriving DecidableEq, Repr

/-- How messages name a flag. -/
def Spec.label (s : Spec) : Bytes :=
  match s.letter with
  | some letter => utf8 "-" ++ [letter] ++ utf8 ", --" ++ s.name
  | none => utf8 "--" ++ s.name

def Error.message : Error → Bytes
  | .badSyntax word => utf8 "bad flag syntax: " ++ word
  | .unknown name => utf8 "unknown flag: --" ++ name
  | .unknownLetter letters =>
    utf8 "unknown shorthand flag: " ++ quoteChar (Char.ofNat ((letters.head?.getD 0).toNat)) ++ utf8 " in -" ++ letters
  | .needsArgument word => utf8 "flag needs an argument: " ++ word
  | .badValue spec value reason =>
    utf8 "invalid argument " ++ quote value ++ utf8 " for " ++ quote spec.label ++ utf8 " flag: " ++ reason
  | .help => utf8 "pflag: help requested"

/-- The value that a text gives a flag. -/
def Spec.read (s : Spec) (value : Bytes) : Except Error Given :=
  match s.kind with
  | .text => .ok (.text value)
  | .int => ((Integer.readAnyBase value).map Given.int).mapError fun e => .badValue s value e.message
  | .truth => ((Truth.read value).map Given.truth).mapError fun e => .badValue s value e.message
  | .duration => ((Duration.read value).map Given.duration).mapError fun e => .badValue s value e.message

/-- What a command line gives: values of flags, the latest first, and plain words in order. -/
structure Parsed where
  given : List (Bytes × Given) := []
  words : List Bytes := []
  deriving DecidableEq, Repr

def Parsed.set (p : Parsed) (s : Spec) (value : Bytes) : Except Error Parsed :=
  (s.read value).map fun v => { p with given := (s.name, v) :: p.given }

def Parsed.addWords (p : Parsed) (words : List Bytes) : Parsed := { p with words := p.words ++ words }

/-- The value of a flag, if it was given; of several the last counts. -/
def Parsed.get? (p : Parsed) (name : Bytes) : Option Given := p.given.lookup name

/-- The letters after a single dash. Only flags that can stand alone have letters. -/
def letters (specs : List Spec) : Bytes → Parsed → Except Error Parsed
  | [], p => .ok p
  | b :: rest, p =>
    match specs.find? fun s => s.letter = some b with
    | none => .error (if b == 0x68 then .help else .unknownLetter (b :: rest))
    | some s =>
      match rest with
      | Ascii.equals :: c :: value => p.set s (c :: value)
      | _ =>
        match p.set s (utf8 "true") with
        | .error e => .error e
        | .ok p => letters specs rest p

/-- What a word is on a command line. -/
inductive Word where
  | plain
  | separator
  | letters (ls : Bytes)
  | long (name : Bytes) (value : Option Bytes)
  | malformed
  deriving DecidableEq, Repr

def classify : Bytes → Word
  | Ascii.minus :: Ascii.minus :: rest =>
    match rest with
    | [] => .separator
    | b :: _ =>
      if b == Ascii.minus || b == Ascii.equals then .malformed
      else
        match Bytes.cut Ascii.equals rest with
        | some (name, value) => .long name (some value)
        | none => .long rest none
  | Ascii.minus :: b :: rest => .letters (b :: rest)
  | _ => .plain

/-- Reads a command line onto what was read before. -/
def parseOnto (specs : List Spec) : List Bytes → Parsed → Except Error Parsed
  | [], p => .ok p
  | word :: rest, p =>
    match classify word with
    | .plain => parseOnto specs rest (p.addWords [word])
    | .separator => .ok (p.addWords rest)
    | .malformed => .error (.badSyntax word)
    | .letters ls =>
      match letters specs ls p with
      | .error e => .error e
      | .ok p => parseOnto specs rest p
    | .long name value =>
      match specs.find? fun s => s.name == name with
      | none => .error (if name == utf8 "help" then .help else .unknown name)
      | some s =>
        match value, rest with
        | some v, rest =>
          match p.set s v with
          | .error e => .error e
          | .ok p => parseOnto specs rest p
        | none, [] =>
          if s.kind = .truth then p.set s (utf8 "true") else .error (.needsArgument word)
        | none, next :: rest =>
          if s.kind = .truth then
            match p.set s (utf8 "true") with
            | .error e => .error e
            | .ok p => parseOnto specs (next :: rest) p
          else
            match p.set s next with
            | .error e => .error e
            | .ok p => parseOnto specs rest p

/-- The flags and words of a command line. -/
def parse (specs : List Spec) (args : List Bytes) : Except Error Parsed := parseOnto specs args {}

end Stopwatch.Flags
