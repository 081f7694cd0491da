import Stopwatch.Host.Launch
import Stopwatch.Text.Path

/-!
The files of the host: directories, texts, programs that belong to the system, and devices. Paths are absolute here, as
lists of parts.
-/

namespace Stopwatch.Host

inductive Node where
  | directory
  | file (content : Bytes) (executable : Bool)
  /-- A program of the system, by name. -/
  | tool (name : Bytes)
  | nullDevice
  | zeroDevice
  /-- A descriptor of the process that looks. -/
  | standard (descriptor : Nat)
  deriving DecidableEq, Repr

/-- The files of a host by path; directories above them are there as well. -/
abbrev Files := List (Parts × Node)

/-- The path with given parts. -/
def pathOf (parts : Parts) : Bytes := Ascii.slash :: Bytes.join [Ascii.slash] parts

namespace Files

/-- What stands at a path. -/
def get? (files : Files) (parts : Parts) : Option Node :=
  match files.find? fun f => f.1 == parts with
  | some (_, node) => some node
  | none =>
    if parts.isEmpty || files.any fun f => parts.isPrefixOf f.1 then some .directory else none

/-- What stands at a path, or why nothing does: a part is missing, or leads through something else than a
directory. -/
def find (files : Files) (parts : Parts) : Except Refusal Node :=
  let above := (List.range parts.length).map fun i => files.get? (parts.take i)
  match above.find? fun node => node != some .directory with
  | some none => .error .missing
  | some (some _) => .error .notDirectory
  | none =>
    match files.get? parts with
    | some node => .ok node
    | none => .error .missing

/-- The files with something at a path. -/
def put (files : Files) (parts : Parts) (node : Node) : Files :=
  if files.any fun f => f.1 == parts then files.map fun f => if f.1 == parts then (parts, node) else f
  else files ++ [(parts, node)]

/-- The files with a text at a path. -/
def write (files : Files) (parts : Parts) (content : Bytes) : Files := files.put parts (.file content false)

/-- The names in a directory, in order. -/
def entries (files : Files) (directory : Parts) : List Bytes :=
  let names := files.filterMap fun f =>
    if directory.isPrefixOf f.1 then f.1[directory.length]? else none
  (names.mergeSort fun a b => a ≤ b).eraseDups

/-- The files without what stands at a path; the directory around it stays. -/
def remove (files : Files) (parts : Parts) : Files :=
  let left : Files := files.filter fun f => !parts.isPrefixOf f.1
  if parts.isEmpty || (left.get? parts.dropLast).isSome then left else left ++ [(parts.dropLast, .directory)]

def makeDirectory (files : Files) (parts : Parts) : Files := files ++ [(parts, .directory)]

end Files

/-- The programs of the system. -/
def toolNames : List String :=
  ["sh", "dash", "bash", "env", "kill", "nohup", "setsid", "nice", "timeout", "xargs", "stdbuf", "perl", "true", "false", "echo",
    "printf", "sleep", "cat", "head", "tail", "tr", "seq", "wc", "yes", "pwd", "test", "[", "expr", "factor", "basename",
    "dirname", "sort", "uniq", "comm", "cut", "paste", "nl", "fold", "expand", "tac", "rev", "tee", "sed", "grep", "egrep",
    "fgrep", "od", "base64", "ls", "mkdir", "rmdir", "rm", "touch", "cp", "mv", "chmod", "printenv", "which", "realpath",
    "whoami", "id", "uname", "tty"]

/-- The files of the system. -/
def systemFiles : Files :=
  toolNames.flatMap (fun name =>
    [([utf8 "bin", utf8 name], Node.tool (utf8 name)), ([utf8 "usr", utf8 "bin", utf8 name], Node.tool (utf8 name))])
  ++ [([utf8 "dev", utf8 "null"], .nullDevice), ([utf8 "dev", utf8 "zero"], .zeroDevice),
    ([utf8 "dev", utf8 "stdin"], .standard 0), ([utf8 "dev", utf8 "stdout"], .standard 1),
    ([utf8 "dev", utf8 "stderr"], .standard 2),
    ([utf8 "etc", utf8 "passwd"], .file (utf8 "root:x:0:0:root:/root:/bin/bash\n") false)]
  ++ ["boot", "etc", "home", "lib", "media", "mnt", "opt", "proc", "root", "run", "sbin", "srv", "sys", "tmp", "var"].map
      fun name => ([utf8 name], .directory)

/-- The file that a plain command name finds in the search path. -/
def searchPath (files : Files) (name : Bytes) : Option Bytes :=
  if name.contains Ascii.nul || name.isEmpty || name == utf8 "." || name == utf8 ".." then none
  else
    match files.get? [utf8 "usr", utf8 "bin", name] with
    | some (.tool _) => some (utf8 "/usr/bin/" ++ name)
    | _ => none

end Stopwatch.Host
