import Stopwatch.Text.Ascii

/-!
What flows between processes: chunks of text, long runs of one octet, and chunks that never end.
-/

namespace Stopwatch.Host

/-- A piece of a stream. -/
inductive Chunk where
  | text (s : Bytes)
  | run (b : UInt8) (n : Nat)
  /-- A text again and again without end. -/
  | endless (s : Bytes)
  deriving Repr, Inhabited

/-- A stream, piece by piece. -/
abbrev Data := List Chunk

namespace Data

def ofBytes (s : Bytes) : Data := if s.isEmpty then [] else [.text s]

/-- Whether a stream ends. -/
def isFinite (d : Data) : Bool := d.all fun
  | .endless _ => false
  | _ => true

/-- The octets of a stream; of an endless piece nothing. -/
def bytes (d : Data) : Bytes := d.flatMap fun
  | .text s => s
  | .run b n => List.replicate n b
  | .endless _ => []

/-- The number of octets of a stream, endless pieces apart. -/
def size (d : Data) : Nat := d.foldl (fun n c =>
  match c with
  | .text s => n + s.length
  | .run _ k => n + k
  | .endless _ => n) 0

/-- The first octets of a stream. -/
def take : Nat → Data → Data
  | 0, _ => []
  | _, [] => []
  | n, .text s :: rest => .text (s.take n) :: take (n - s.length) rest
  | n, .run b k :: rest => .run b (min n k) :: take (n - k) rest
  | n, .endless s :: _ =>
    match s with
    | [] => []
    | [b] => [.run b n]
    | s => [.text ((List.replicate (n / s.length + 1) s).flatten.take n)]

/-- Every octet replaced by others. -/
def mapBytes (f : UInt8 → Bytes) (d : Data) : Data := d.map fun
  | .text s => .text (s.flatMap f)
  | .run b n =>
    match f b with
    | [c] => .run c n
    | s => .text (List.replicate n s).flatten
  | .endless s => .endless (s.flatMap f)

/-- The stream with endless pieces cut after so many rounds. -/
def bounded (rounds : Nat) (d : Data) : Data := d.map fun
  | .endless s => .text (List.replicate rounds s).flatten
  | c => c

/-- Newlines at the end dropped. -/
def dropFinalNewlines (d : Data) : Data :=
  let rec go : List Chunk → List Chunk
    | [] => []
    | .text s :: rest =>
      let kept := s.reverse.dropWhile (· == Ascii.newline)
      if kept.isEmpty then go rest else .text kept.reverse :: rest
    | .run b n :: rest => if b == Ascii.newline || n = 0 then go rest else .run b n :: rest
    | c :: rest => c :: rest
  (go d.reverse).reverse

end Data

/-- The lines of a text, each with its newline; a last one without is a line too. -/
def linesOf (s : Bytes) : List Bytes :=
  let (lines, last) := s.foldl (fun (lines, cur) b =>
    if b == Ascii.newline then ((b :: cur).reverse :: lines, []) else (lines, b :: cur)) (([] : List Bytes), ([] : Bytes))
  (if last.isEmpty then lines else last.reverse :: lines).reverse

end Stopwatch.Host
