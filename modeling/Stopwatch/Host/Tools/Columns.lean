import Stopwatch.Host.Call
import Stopwatch.Host.Printf

/-!
Programs that work across lines: parts of lines, lines side by side, numbers in front of lines, and lines of a width.
-/

namespace Stopwatch.Host

namespace Cut

/-- A range of positions, counted from one; without an end it goes on to the end of the line. -/
structure Span where
  first : Nat
  last : Option Nat

def Span.covers (r : Span) (n : Nat) : Bool := r.first ≤ n && r.last.all fun l => n ≤ l

/-- Reads one range of a list. -/
def span (fields : Bool) (s : Bytes) : Except Bytes Span :=
  let zero : Bytes := utf8 (if fields then "fields are numbered from 1" else "byte/character positions are numbered from 1")
  let bad : Bytes := utf8 (if fields then "invalid field value " else "invalid byte/character position ") ++ quoted s
  let number (s : Bytes) : Option Nat := if s.all Ascii.isDigit then naturalOf s else none
  match Bytes.split Ascii.minus s with
  | [whole] =>
    if whole.isEmpty then .error zero
    else
      match number whole with
      | some 0 => .error zero
      | some n => .ok { first := n, last := some n }
      | none => .error bad
  | [low, high] =>
    if low.isEmpty && high.isEmpty then .error (utf8 "invalid range with no endpoint: -")
    else
      match (if low.isEmpty then some 1 else number low), (if high.isEmpty then some none else (number high).map some) with
      | some 0, _ => .error zero
      | some a, some none => .ok { first := a, last := none }
      | some a, some (some b) =>
        if b < a then .error (utf8 "invalid decreasing range") else .ok { first := a, last := some b }
      | _, _ => .error bad
  | _ => .error (utf8 (if fields then "invalid field range" else "invalid byte or character range"))

/-- Reads a list of ranges. -/
def spans (fields : Bool) (s : Bytes) : Except Bytes (List Span) :=
  ((Bytes.split Ascii.comma s).flatMap (Bytes.split Ascii.space)).mapM (span fields)

/-- What is taken of a line. -/
structure Selection where
  spans : List Span
  complement : Bool := false
  /-- The octet between fields; without one single octets are taken. -/
  delimiter : Option UInt8 := none
  /-- Whether lines without a delimiter are left out. -/
  onlyDelimited : Bool := false
  joint : Option Bytes := none

def Selection.takes (c : Selection) (n : Nat) : Bool := (c.spans.any fun r => r.covers n) != c.complement

/-- Whether a range ends right before a position at which another one starts. -/
def Selection.starts (c : Selection) (n : Nat) : Bool :=
  c.takes n && (!c.takes (n - 1) || (c.spans.any fun r => r.first = n)
    && !(c.spans.any fun r => r.covers (n - 1) && r.covers n))

def Selection.apply (c : Selection) (line : Bytes) : Option Bytes :=
  match c.delimiter with
  | some d =>
    if !line.contains d then if c.onlyDelimited then none else some line
    else
      let fields := (Bytes.split d line).zipIdx.filterMap fun (f, i) => if c.takes (i + 1) then some f else none
      some (Bytes.join (c.joint.getD [d]) fields)
  | none =>
    let kept := line.zipIdx.filter fun (_, i) => c.takes (i + 1)
    some (match c.joint with
      | none => kept.map Prod.fst
      | some j => (kept.foldl (fun (acc, first) (b, i) =>
          (acc ++ (if !first && c.starts (i + 1) then j else []) ++ [b], false)) (([] : Bytes), true)).1)

def options : Options :=
  { flags := "snzC", valued := "bcfdO"
    long := [("bytes", 'b'), ("characters", 'c'), ("fields", 'f'), ("delimiter", 'd'), ("only-delimited", 's'),
      ("complement", 'C'), ("output-delimiter", 'O'), ("zero-terminated", 'z')] }

def tool (c : Call) : Effect :=
  c.withOptions "cut" 1 options fun g =>
    let lists := g.options.filter fun o => o.1 = 'b' || o.1 = 'c' || o.1 = 'f'
    let misuse (text : String) : Effect := .misuse "cut" 1 (utf8 text)
    match lists with
    | [] => misuse "you must specify a list of bytes, characters, or fields"
    | _ :: _ :: _ => misuse "only one list may be specified"
    | [(letter, list)] =>
      let fields := letter = 'f'
      if (g.value? 'd').any fun d => 1 < d.length then misuse "the delimiter must be a single character"
      else if !fields && g.has 'd' then misuse "an input delimiter may be specified only when operating on fields"
      else if !fields && g.has 's' then
        misuse "suppressing non-delimited lines makes sense\n\tonly when operating on fields"
      else
        match spans fields list with
        | .error text => .misuse "cut" 1 text
        | .ok spans =>
          let selection : Selection :=
            { spans
              complement := g.has 'C'
              delimiter := if fields then some (((g.value? 'd').map fun d => d.head?.getD 0).getD Ascii.tab) else none
              onlyDelimited := g.has 's'
              joint := g.value? 'O' }
          let (data, err, reads) := c.readAll (utf8 "cut") g.words
          { out := Data.ofBytes (unlines ((plainLines (data.bounded 1).bytes).filterMap selection.apply)), err
            status := if err.isEmpty then 0 else 1, reads }

end Cut

namespace Paste

/-- The octets between columns, with escapes read. -/
def delimiters : Nat → Bytes → List Bytes
  | 0, _ => []
  | fuel + 1, s =>
    match s with
    | [] => []
    | Ascii.backslash :: b :: rest =>
      (if b == Ascii.zero then [] else [(Printf.escape? b).getD b]) :: delimiters fuel rest
    | b :: rest => [b] :: delimiters fuel rest

/-- Texts with delimiters between them in turn. -/
def joined (delimiters : List Bytes) (texts : List Bytes) : Bytes :=
  match texts with
  | [] => []
  | first :: rest =>
    first ++ (rest.zipIdx.flatMap fun (t, i) => (delimiters[i % max 1 delimiters.length]?).getD [] ++ t)

/-- The columns of operands: those that read the input share its lines in turn. -/
def columns (input : List Bytes) (contents : List (Option (List Bytes))) : List (List Bytes) :=
  let sharing := (contents.filter Option.isNone).length
  let (cols, _) := contents.foldl (fun (cols, k) content =>
    match content with
    | some lines => (cols ++ [lines], k)
    | none =>
      (cols ++ [(input.zipIdx.filter fun (_, i) => i % sharing = k).map Prod.fst], k + 1)) (([] : List (List Bytes)), 0)
  cols

def tool (c : Call) : Effect :=
  c.withOptions "paste" 1
    { flags := "sz", valued := "d", long := [("serial", 's'), ("delimiters", 'd')] } fun g =>
    let marks := match g.value? 'd' with
      | some d => delimiters (d.length + 1) d
      | none => [[Ascii.tab]]
    let paths := if g.words.isEmpty then [utf8 "-"] else g.words
    match paths.find? fun p => !(c.open? p).isOk with
    | some path =>
      let text := match c.open? path with
        | .error t => t
        | .ok _ => []
      .fail 1 (utf8 "paste: " ++ path ++ utf8 ": " ++ text)
    | none =>
      let lines (p : Bytes) : List Bytes := plainLines (((c.open? p).toOption.getD []).bounded 1).bytes
      let reads := paths.contains (utf8 "-")
      if g.has 's' then { out := Data.ofBytes (unlines (paths.map fun p => joined marks (lines p))), reads }
      else
        let cols := columns (lines (utf8 "-")) (paths.map fun p => if p == utf8 "-" then none else some (lines p))
        let height := cols.foldl (fun n col => max n col.length) 0
        let rows := (List.range height).map fun i => joined marks (cols.map fun col => (col[i]?).getD [])
        { out := Data.ofBytes (unlines rows), reads }

end Paste

/-- Puts numbers in front of lines. -/
def nlTool (c : Call) : Effect :=
  let o : Options :=
    { flags := "p", valued := "bdfhilnsvw"
      long := [("body-numbering", 'b'), ("number-width", 'w'), ("number-separator", 's'), ("starting-line-number", 'v'),
        ("line-increment", 'i'), ("number-format", 'n')] }
  c.withOptions "nl" 1 o fun g =>
    let (data, err, reads) := c.readAll (utf8 "nl") g.words
    let number (letter : Char) (usual : Nat) : Nat := ((g.value? letter).bind naturalOf).getD usual
    let width := number 'w' 6
    let separator := (g.value? 's').getD [Ascii.tab]
    let style := (g.value? 'b').getD (utf8 "t")
    let numeral (n : Nat) : Bytes :=
      let text := Integer.ofNat n
      let gap := width - text.length
      if g.value? 'n' = some (utf8 "ln") then text ++ List.replicate gap Ascii.space
      else if g.value? 'n' = some (utf8 "rz") then List.replicate gap Ascii.zero ++ text
      else Bytes.padLeft width text
    let (out, _) := (plainLines (data.bounded 1).bytes).foldl (fun (out, n) l =>
      if style == utf8 "a" || (style == utf8 "t" && !l.isEmpty) then
        (out ++ numeral n ++ separator ++ l ++ [Ascii.newline], n + number 'i' 1)
      else (out ++ List.replicate (width + separator.length) Ascii.space ++ l ++ [Ascii.newline], n))
      (([] : Bytes), number 'v' 1)
    { out := Data.ofBytes out, err, status := if err.isEmpty then 0 else 1, reads }

/-- The pieces of a line that are no wider than a width; with `spaces` a piece ends behind its last blank. -/
def foldLine (width : Nat) (spaces : Bool) : Nat → Bytes → List Bytes
  | 0, s => [s]
  | fuel + 1, s =>
    if s.length ≤ width then [s]
    else
      let piece := s.take width
      let back := (piece.reverse.takeWhile (· != Ascii.space)).length
      let size := if spaces && back < piece.length then piece.length - back else width
      s.take size :: foldLine width spaces fuel (s.drop size)

def foldTool (c : Call) : Effect :=
  let args := c.args.map fun a =>
    match a with
    | Ascii.minus :: d :: more => if (d :: more).all Ascii.isDigit then utf8 "-w" ++ d :: more else a
    | _ => a
  ({ c with args } : Call).withOptions "fold" 1
    { flags := "bs", valued := "w", long := [("width", 'w'), ("spaces", 's'), ("bytes", 'b')] } fun g =>
    match (g.value? 'w').map fun w => (w, naturalOf w) with
    | some (w, none) => .fail 1 (utf8 "fold: invalid number of columns: " ++ quoted w)
    | some (w, some 0) =>
      .fail 1 (utf8 "fold: invalid number of columns: " ++ quoted w ++ utf8 ": Numerical result out of range")
    | width =>
      let width := ((width.bind Prod.snd).getD 80)
      let (data, err, reads) := c.readAll (utf8 "fold") g.words
      let out := (linesOf (data.bounded 1).bytes).flatMap fun l =>
        let plain := l.filter (· != Ascii.newline)
        Bytes.join [Ascii.newline] (foldLine width (g.has 's') (plain.length + 1) plain)
          ++ (if l.contains Ascii.newline then [Ascii.newline] else [])
      { out := Data.ofBytes out, err, status := if err.isEmpty then 0 else 1, reads }

/-- Writes tabs as blanks. -/
def expandTool (c : Call) : Effect :=
  c.withOptions "expand" 1 { flags := "i", valued := "t", long := [("tabs", 't'), ("initial", 'i')] } fun g =>
    match (g.value? 't').map fun t => (t, naturalOf t) with
    | some (t, none) => .fail 1 (utf8 "expand: tab size contains invalid character(s): " ++ quoted t)
    | some (_, some 0) => .fail 1 (utf8 "expand: tab size cannot be 0")
    | size =>
      let size := (size.bind Prod.snd).getD 8
      let (data, err, reads) := c.readAll (utf8 "expand") g.words
      let (out, _) := (data.bounded 1).bytes.foldl (fun (out, column) b =>
        if b == Ascii.tab then
          let gap := size - column % size
          (List.replicate gap Ascii.space ++ out, column + gap)
        else if b == Ascii.newline then (b :: out, 0)
        else (b :: out, column + 1)) (([] : Bytes), 0)
      { out := Data.ofBytes out.reverse, err, status := if err.isEmpty then 0 else 1, reads }

end Stopwatch.Host
