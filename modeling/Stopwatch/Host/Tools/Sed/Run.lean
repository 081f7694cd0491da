import Stopwatch.Host.Call
import Stopwatch.Host.Tools.Sed.Script

/-!
Running a script of the stream editor over lines.
-/

namespace Stopwatch.Host.Sed

/-- The editor at work. Texts that were written come latest first. -/
structure Work where
  quiet : Bool := false
  separator : UInt8 := Ascii.newline
  /-- The lines to come, and whether the last one ends like the others. -/
  input : List Bytes
  closed : Bool := true
  number : Nat := 0
  space : Bytes := []
  held : Bytes := []
  out : List Bytes := []
  /-- Whether the last line that was written still lacks its end. -/
  unfinished : Bool := false
  /-- What follows at the end of the round. -/
  queue : List Bytes := []
  made : Bool := false
  lastPattern : Option Regex := none
  /-- The commands whose ranges are open, each with the line of its end if that is known. -/
  open_ : List (Nat × Option Nat) := []
  written : List (Bytes × Bytes) := []
  readLines : List (Bytes × Nat) := []
  files : Bytes → Option Bytes := fun _ => none
  trouble : Option Bytes := none

namespace Work

def isLast (w : Work) : Bool := w.input.isEmpty

/-- Writes a text as it is. -/
def raw (w : Work) (s : Bytes) : Work :=
  if s.isEmpty then w
  else { w with out := s :: (if w.unfinished then [w.separator] :: w.out else w.out), unfinished := false }

/-- Writes a line; the last one ends as it did in the input. -/
def line (w : Work) (s : Bytes) : Work :=
  let before := if w.unfinished then [w.separator] :: w.out else w.out
  if w.isLast && !w.closed then { w with out := s :: before, unfinished := true }
  else { w with out := (s ++ [w.separator]) :: before, unfinished := false }

/-- Writes a line to a file. -/
def lineTo (w : Work) (path s : Bytes) : Work :=
  if path == utf8 "/dev/stdout" then w.line s
  else
    let before := (w.written.lookup path).getD []
    { w with written := (path, before ++ s ++ [w.separator]) :: w.written.filter fun f => f.1 != path }

/-- Takes the next line. -/
def advance (w : Work) : Option (Bytes × Work) :=
  match w.input with
  | [] => none
  | l :: rest => some (l, { w with input := rest, number := w.number + 1 })

def flush (w : Work) : Work := { w.queue.reverse.foldl raw w with queue := [] }

/-- The pattern that counts: the given one, which is then the last one used, or the last one. -/
def pattern (w : Work) (r : Option Regex) : Option Regex × Work :=
  match r with
  | some r => (some r, { w with lastPattern := some r })
  | none =>
    match w.lastPattern with
    | some r => (some r, w)
    | none => (none, { w with trouble := some (utf8 "no previous regular expression") })

def fits (w : Work) : Address → Bool × Work
  | .line n => (w.number = n, w)
  | .last => (w.isLast, w)
  | .every first step =>
    (if step = 0 then w.number = first else first ≤ w.number && (w.number - first) % step = 0, w)
  | .pattern r =>
    let (r, w) := w.pattern r
    (r.any fun r => (r.find? w.space).isSome, w)

/-- Whether a command is for the current line; its range opens and closes on the way. -/
def chosen (w : Work) (index : Nat) (c : Command) : Bool × Work :=
  let close (w : Work) : Work := { w with open_ := w.open_.filter fun o => o.1 ≠ index }
  let openTo (w : Work) (finish : Option Nat) : Work := { w with open_ := (index, finish) :: w.open_ }
  match c.first, c.second with
  | none, _ => (true, w)
  | some a, none => w.fits a
  | some a, some e =>
    match w.open_.lookup index with
    | some (some finish) =>
      let w := if finish ≤ w.number then close w else w
      (w.number ≤ finish, w)
    | some none =>
      match e with
      | .address a =>
        let (found, w) := w.fits a
        (true, if found then close w else w)
      | _ => (true, w)
    | none =>
      let (found, w) := w.fits a
      if !found then (false, w)
      else
        match e with
        | .address (.line n) => (true, if n ≤ w.number then w else openTo w (some n))
        | .after n => (true, if n = 0 then w else openTo w (some (w.number + n)))
        | .multiple n =>
          let finish := if n = 0 then w.number else (w.number + n - 1) / n * n
          (true, if finish ≤ w.number then w else openTo w (some finish))
        | .address _ => (true, openTo w none)

end Work

/-- A replacement in the making: its text, the latest octet first, and the case marks that hold. -/
structure Casing where
  text : Bytes := []
  all : Option Bool := none
  next : Option Bool := none

def Casing.add (c : Casing) (s : Bytes) : Casing :=
  s.foldl (fun c b =>
    let up := match c.next with
      | some u => some u
      | none => c.all
    { c with
      text := (match up with
        | some true => Ascii.upper b
        | some false => Ascii.lower b
        | none => b) :: c.text
      next := none }) c

/-- The text that stands in for a match. -/
def replaced (pieces : List Piece) (m : Regex.Match) : Bytes :=
  let c := pieces.foldl (fun c p =>
    match p with
    | .text s => c.add s
    | .group 0 => c.add m.text
    | .group n => c.add ((m.groups.lookup n).getD [])
    | .mark .upper => { c with all := some true, next := none }
    | .mark .lower => { c with all := some false, next := none }
    | .mark .plain => { c with all := none, next := none }
    | .mark .nextUpper => { c with next := some true }
    | .mark .nextLower => { c with next := some false }) ({} : Casing)
  c.text.reverse

/-- A text with matches replaced, from the counted one on; none if there are too few. -/
def substituted (t : Substitution) (r : Regex) (s : Bytes) : Option Bytes :=
  let found := (r.all s).drop (t.nth - 1)
  let found := if t.global then found else found.take 1
  if found.isEmpty then none
  else
    let (text, done) := found.foldl (fun (acc, done) m =>
      let gap := (m.before.drop done)
      (acc ++ gap ++ replaced t.replacement m, m.before.length + m.text.length)) (([] : Bytes), 0)
    some (text ++ s.drop done)

/-- One octet of a listing. -/
def listed (b : UInt8) : Bytes :=
  if b == Ascii.backslash then utf8 "\\\\"
  else
    match [(0x07, "\\a"), (0x08, "\\b"), (0x0c, "\\f"), (0x0a, "\\n"), (0x0d, "\\r"), (0x09, "\\t"),
      (0x0b, "\\v")].lookup b with
    | some text => utf8 text
    | none =>
      if 0x20 ≤ b && b < 0x7f then [b]
      else
        let n := b.toNat
        [Ascii.backslash, (48 + n / 64).toUInt8, (48 + n / 8 % 8).toUInt8, (48 + n % 8).toUInt8]

/-- A listing in lines of a width; zero means no limit. -/
def listing (width : Nat) (s : Bytes) : Bytes :=
  let (out, _) := s.foldl (fun (out, column) b =>
    let text := listed b
    if 0 < width && width - 1 < column + text.length then (out ++ utf8 "\\\n" ++ text, text.length)
    else (out ++ text, column + text.length)) (([] : Bytes), 0)
  out ++ utf8 "$\n"

/-- How a run through the commands ended. -/
inductive Ending where
  | done
  | discarded
  /-- Another round without reading. -/
  | again
  | quit (status : Nat) (prints : Bool)

/-- The place behind the block that starts before a place. -/
def behindBlock (program : List Command) : Nat → Nat → Nat → Nat
  | 0, _, i => i
  | fuel + 1, depth, i =>
    match program[i]? with
    | none => i
    | some c =>
      match c.action with
      | .openBlock => behindBlock program fuel (depth + 1) (i + 1)
      | .closeBlock => if depth = 0 then i + 1 else behindBlock program fuel (depth - 1) (i + 1)
      | _ => behindBlock program fuel depth (i + 1)

/-- The place of a label; an empty one is the end. -/
def placeOf (program : List Command) (name : Bytes) : Nat :=
  if name.isEmpty then program.length
  else
    (program.findIdx? fun c =>
      match c.action with
      | .label n => n == name
      | _ => false).getD program.length

/-- Runs the commands from a place on. -/
def runFrom (program : List Command) : Nat → Nat → Work → Ending × Work
  | 0, _, w => (.quit 1 false, w)
  | fuel + 1, i, w =>
    match program[i]? with
    | none => (.done, w)
    | some c =>
      let (found, w) := w.chosen i c
      if w.trouble.isSome then (.quit 1 false, w)
      else if found = c.negated then
        match c.action with
        | .openBlock => runFrom program fuel (behindBlock program (program.length + 1) 0 (i + 1)) w
        | _ => runFrom program fuel (i + 1) w
      else
        let go (w : Work) : Ending × Work := runFrom program fuel (i + 1) w
        match c.action with
        | .openBlock => go w
        | .closeBlock => go w
        | .nothing => go w
        | .label _ => go w
        | .number => go (w.raw (Integer.ofNat w.number ++ [Ascii.newline]))
        | .append text => go { w with queue := text :: w.queue }
        | .insert text => go (w.raw text)
        | .change text =>
          let inside := (w.open_.lookup i).isSome && !c.negated
          (.discarded, if inside then w else w.raw text)
        | .jump name => runFrom program fuel (placeOf program name) w
        | .jumpIf wanted name =>
          let made := w.made
          let w := { w with made := false }
          if made = wanted then runFrom program fuel (placeOf program name) w else go w
        | .delete => (.discarded, w)
        | .deleteFirst =>
          match Bytes.cut Ascii.newline w.space with
          | some (_, rest) => (.again, { w with space := rest })
          | none => (.discarded, w)
        | .print => go (w.line w.space)
        | .printFirst => go (w.line (w.space.takeWhile (· != Ascii.newline)))
        | .next =>
          if w.isLast then (.quit 0 true, w)
          else
            let w := if w.quiet then w else w.line w.space
            match w.flush.advance with
            | some (l, w) => go { w with space := l }
            | none => (.quit 0 false, w)
        | .nextAppend =>
          match w.flush.advance with
          | some (l, w) => go { w with space := w.space ++ [Ascii.newline] ++ l }
          | none => (.quit 0 true, w)
        | .getHeld => go { w with space := w.held }
        | .getHeldAppend => go { w with space := w.space ++ [Ascii.newline] ++ w.held }
        | .keep => go { w with held := w.space }
        | .keepAppend => go { w with held := w.held ++ [Ascii.newline] ++ w.space }
        | .exchange => go { w with space := w.held, held := w.space }
        | .quit status prints => (.quit status prints, w)
        | .list width => go (w.raw (listing (width.getD 70) w.space))
        | .clear => go { w with space := [] }
        | .fileName => go (w.raw (utf8 "-\n"))
        | .readFile path => go { w with queue := ((w.files path).getD []) :: w.queue }
        | .readLine path =>
          let n := (w.readLines.lookup path).getD 0
          match (plainLines ((w.files path).getD []))[n]? with
          | some l =>
            go { w with
              queue := (l ++ [Ascii.newline]) :: w.queue
              readLines := (path, n + 1) :: w.readLines.filter fun r => r.1 != path }
          | none => go w
        | .write path => go (w.lineTo path w.space)
        | .writeFirst path => go (w.lineTo path (w.space.takeWhile (· != Ascii.newline)))
        | .translate table => go { w with space := w.space.map fun b => (table.lookup b).getD b }
        | .substitute t =>
          let (r, w) := w.pattern t.pattern
          match r with
          | none => (.quit 1 false, w)
          | some r =>
            match substituted t r w.space with
            | none => go w
            | some s =>
              let w := { w with space := s, made := true }
              let w := if t.prints then w.line s else w
              go (match t.file with
                | some path => w.lineTo path s
                | none => w)

/-- The rounds over all lines; with `again` the next round does not read. -/
def rounds (program : List Command) (bound : Nat) : Nat → Bool → Work → Nat × Work
  | 0, _, w => (1, w)
  | fuel + 1, again, w =>
    let started : Option Work :=
      if again then some w
      else w.advance.map fun (l, w) => { w with space := l, made := false }
    match started with
    | none => (0, w)
    | some w =>
      let (ending, w) := runFrom program bound 0 w
      match ending with
      | .done => rounds program bound fuel false (if w.quiet then w else w.line w.space).flush
      | .discarded => rounds program bound fuel false w.flush
      | .again => rounds program bound fuel true w.flush
      | .quit status prints => (status, (if prints && !w.quiet then w.line w.space else w).flush)

end Stopwatch.Host.Sed
