import Stopwatch.Text.Ascii

/-!
Paths of files. A path leads from a directory, or from the root if it starts with a slash, and is followed without looking
at any file: a part of two dots takes back the part before it.
-/

namespace Stopwatch

/-- The parts of an absolute path. -/
abbrev Parts := List Bytes

/-- The parts after one more part of a path. -/
def stepTo (parts : Parts) (part : Bytes) : Parts :=
  if part.isEmpty || part == utf8 "." then parts
  else if part == utf8 ".." then parts.dropLast
  else parts ++ [part]

/-- The parts of a path that starts at a directory. -/
def partsFrom (directory : Parts) (path : Bytes) : Parts :=
  let start := if path.head? = some Ascii.slash then [] else directory
  (Bytes.split Ascii.slash path).foldl stepTo start

end Stopwatch
