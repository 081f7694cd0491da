import Stopwatch.Host.Shell.Builtin
import Stopwatch.Host.Shell.Parser

/-!
What a command name stands for, in the words of `type` and `command`.
-/

namespace Stopwatch.Host.Shell

/-- What a name stands for where a command starts. -/
inductive Meaning where
  | keyword
  | shorthand (value : Bytes)
  | function
  | builtin (special : Bool)
  | file (path : Bytes) (tracked : Bool)
  | unknown

def isSpecialBuiltin (name : Bytes) : Bool := specialNames.any fun n => utf8 n == name

/-- The meaning of a name: words of the language first, then the shell's own, then files. -/
def State.meaning (s : State) (name : Bytes) : Meaning :=
  if keywords.any fun k => utf8 k == name then .keyword
  else
    match s.aliases.lookup name with
    | some value => .shorthand value
    | none =>
      if isSpecialBuiltin name then .builtin true
      else if s.functions.any fun f => f.1 == name then .function
      else if Builtin.isKnown name then .builtin false
      else
        match s.lookup name with
        | .ok (_, path) => .file path (!name.contains Ascii.slash && s.tracked.any fun t => t.1 == name)
        | .error _ => .unknown

/-- A meaning in short, or in a sentence; nothing in short for a name without one. -/
def Meaning.text (name : Bytes) (inWords : Bool) : Meaning → Bytes
  | .keyword => if inWords then name ++ utf8 " is a shell keyword\n" else name ++ utf8 "\n"
  | .shorthand value =>
    if inWords then name ++ utf8 " is an alias for " ++ value ++ utf8 "\n"
    else utf8 "alias " ++ Builtin.aliasText name value
  | .function => if inWords then name ++ utf8 " is a shell function\n" else name ++ utf8 "\n"
  | .builtin special =>
    if inWords then name ++ utf8 (if special then " is a special shell builtin\n" else " is a shell builtin\n")
    else name ++ utf8 "\n"
  | .file path tracked =>
    if inWords then name ++ utf8 (if tracked then " is a tracked alias for " else " is ") ++ path ++ utf8 "\n"
    else path ++ utf8 "\n"
  | .unknown => if inWords then name ++ utf8 ": not found\n" else []

/-- Prints what names stand for. -/
def State.describe (s : State) (inWords : Bool) (names : List Bytes) : State :=
  names.foldl (fun s name =>
    let meaning := s.meaning name
    let s := s.print (meaning.text name inWords)
    match meaning with
    | .unknown => s.setStatus 127
    | _ => s) (s.setStatus 0)

end Stopwatch.Host.Shell
