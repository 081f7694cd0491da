import Stopwatch.Host.Files
import Stopwatch.Host.Shell.Pattern

/-!
Names of files that a pattern stands for. A pattern never stands for a slash, and for a dot at the start of a name only
if it starts with one itself.
-/

namespace Stopwatch.Host.Shell.Glob

/-- The parts of a pattern between slashes. -/
def splitParts (p : Pattern) : List Pattern :=
  let (parts, last) := p.foldl (fun (parts, part) x =>
    if x.1 == Ascii.slash then (part.reverse :: parts, []) else (parts, x :: part)) (([] : List Pattern), ([] : Pattern))
  (last.reverse :: parts).reverse

/-- The names in a directory that a part stands for. -/
def fitting (files : Files) (directory : Parts) (part : Pattern) : List Bytes :=
  let dotted := part.head?.map Prod.fst = some Ascii.dot
  let names := (if dotted then [utf8 ".", utf8 ".."] else []) ++ files.entries directory
  names.filter fun name => (dotted || name.head? ≠ some Ascii.dot) && part.covers name

/-- The paths that the parts of a pattern stand for, from a directory reached by a path. -/
def paths (files : Files) : List Pattern → Parts → Bytes → List Bytes
  | [], _, path => [path]
  | part :: rest, directory, path =>
    let ahead := if rest.isEmpty then [] else [Ascii.slash]
    if part.isOpen then
      if files.get? directory = some .directory then
        (fitting files directory part).flatMap fun name =>
          let next := stepTo directory name
          if rest.isEmpty || files.get? next = some .directory then paths files rest next (path ++ name ++ ahead) else []
      else []
    else
      let name := part.map Prod.fst
      let next := stepTo directory name
      if rest.isEmpty && (files.get? next).isNone then [] else paths files rest next (path ++ name ++ ahead)

/-- The files that a pattern stands for, in order. -/
def expand (files : Files) (directory : Parts) (p : Pattern) : List Bytes :=
  match splitParts p with
  | [] :: rest => (paths files rest [] [Ascii.slash]).mergeSort fun a b => a ≤ b
  | parts => (paths files parts directory []).mergeSort fun a b => a ≤ b

end Stopwatch.Host.Shell.Glob
