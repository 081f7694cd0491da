import Stopwatch.Settings.DotEnv

/-!
Looking for a settings file in a directory. The name of the directory may refer to environment variables.
-/

namespace Stopwatch.Settings

/-- The names that a settings file may have, the first one preferred. -/
def fileNames : List Bytes :=
  (["json", "toml", "yaml", "yml", "properties", "props", "prop", "hcl", "tfvars", "dotenv", "env", "ini"].map
    fun extension => utf8 "config." ++ utf8 extension) ++ [utf8 "config"]

/-- The octets that name a variable by themselves behind a dollar sign. -/
def isSpecialName (b : UInt8) : Bool := Ascii.isDigit b || (utf8 "*#$@!?-").contains b

/-- What is referred to behind a dollar sign: the length of the reference and its variable. A name that is not there
takes the whole reference away; without a length the dollar sign stands for itself. -/
def pathReference : Bytes → Nat × Bytes
  | [] => (0, [])
  | Ascii.openBrace :: rest =>
    match Bytes.cut Ascii.closeBrace rest with
    | some (name, _) =>
      if name.isEmpty then (2, []) else (name.length + 2, name)
    | none => (1, [])
  | b :: rest =>
    if isSpecialName b then (1, [b])
    else
      let name := (b :: rest).takeWhile fun b => Ascii.isLetter b || Ascii.isDigit b || b == Ascii.underscore
      (name.length, name)

/-- A path with its references to environment variables replaced. The number bounds the octets. -/
def expandPath (environment : DotEnv.Variables) : Nat → Bytes → Bytes
  | 0, s => s
  | fuel + 1, s =>
    match s with
    | [] => []
    | [b] => [b]
    | Ascii.dollar :: rest =>
      let (n, name) := pathReference rest
      let text := if n = 0 then [Ascii.dollar] else (environment.lookup name).getD []
      text ++ expandPath environment fuel (rest.drop n)
    | b :: rest => b :: expandPath environment fuel rest

/-- The directory that a name stands for. -/
def placeOf (environment : DotEnv.Variables) (directory : Bytes) : Bytes :=
  let place := expandPath environment (directory.length + 1) directory
  if place.isEmpty then utf8 "." else place

/-- The settings file of a directory, where `read` gives the content of a file by its path. -/
def fileIn (read : Bytes → Option Bytes) (environment : DotEnv.Variables) (directory : Bytes) : Option Bytes :=
  fileNames.findSome? fun name => read (placeOf environment directory ++ utf8 "/" ++ name)

end Stopwatch.Settings
