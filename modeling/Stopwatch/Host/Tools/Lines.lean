import Stopwatch.Host.Call

/-!
Programs that show, count and turn around the lines of files.
-/

namespace Stopwatch.Host

/-- Complaints and what came before them, file by file: every program goes on after a file that it cannot read. -/
structure Shown where
  out : Bytes := []
  err : Bytes := []

namespace Cat

/-- How octets and lines are shown. -/
structure Style where
  numbers : Bool := false
  /-- Only lines with text get numbers. -/
  textNumbers : Bool := false
  ends : Bool := false
  tabs : Bool := false
  controls : Bool := false
  squeezed : Bool := false

def Style.isPlain (s : Style) : Bool :=
  !(s.numbers || s.textNumbers || s.ends || s.tabs || s.controls || s.squeezed)

def octet (s : Style) (b : UInt8) : Bytes :=
  if b == Ascii.tab then if s.tabs then utf8 "^I" else [b]
  else if !s.controls then [b]
  else
    let low (b : UInt8) : Bytes :=
      if b < 0x20 then [Ascii.caret, b + 0x40] else if b == 0x7f then utf8 "^?" else [b]
    if 0x80 ≤ b then utf8 "M-" ++ low (b - 0x80) else low b

/-- The lines of a text in a style. -/
def render (s : Style) (text : Bytes) : Bytes :=
  let (out, _, _) := (linesOf text).foldl (fun (out, n, blanks) l =>
    let whole := l.getLast? = some Ascii.newline
    let plain := if whole then l.dropLast else l
    let empty := plain.isEmpty
    if s.squeezed && empty && 0 < blanks then (out, n, blanks + 1)
    else
      let counted := if s.textNumbers then !empty else s.numbers
      let front := if counted then Bytes.padLeft 6 (Integer.ofNat n) ++ [Ascii.tab] else []
      let line := front ++ plain.flatMap (octet s) ++ (if whole then (if s.ends then utf8 "$\n" else utf8 "\n") else [])
      (line :: out, if counted then n + 1 else n, if empty then blanks + 1 else 0)) (([] : List Bytes), 1, 0)
  out.reverse.flatten

def tool (c : Call) : Effect :=
  let o : Options :=
    { flags := "AbeEnstTuv"
      long := [("show-all", 'A'), ("number-nonblank", 'b'), ("show-ends", 'E'), ("number", 'n'), ("squeeze-blank", 's'),
        ("show-tabs", 'T'), ("show-nonprinting", 'v')] }
  c.withOptions "cat" 1 o fun g =>
    let (data, err, reads) := c.readAll (utf8 "cat") g.words
    let style : Style :=
      { numbers := g.has 'n'
        textNumbers := g.has 'b'
        ends := g.has 'E' || g.has 'e' || g.has 'A'
        tabs := g.has 'T' || g.has 't' || g.has 'A'
        controls := g.has 'v' || g.has 'e' || g.has 't' || g.has 'A'
        squeezed := g.has 's' }
    { out := if style.isPlain || !data.isFinite then data else Data.ofBytes (render style data.bytes)
      err, status := if err.isEmpty then 0 else 1, reads }

end Cat

namespace Extent

/-- How much of a file is shown: so many lines or octets, counted from the start or from the end. -/
structure Amount where
  octets : Bool := false
  n : Nat := 10
  fromStart : Bool := true

/-- A count with a suffix for its unit. -/
def count? (s : Bytes) : Option Nat :=
  let digits := s.takeWhile Ascii.isDigit
  let unit : Option Nat := match (s.drop digits.length) with
    | [] => some 1
    | suffix =>
      ([("b", 512), ("K", 1024), ("k", 1024), ("KiB", 1024), ("kB", 1000), ("KB", 1000), ("M", 1048576), ("MB", 1000000),
        ("G", 1073741824), ("GB", 1000000000)].find? fun (n, _) => utf8 n == suffix).map Prod.snd
  if digits.isEmpty then none else do return (← naturalOf digits) * (← unit)

/-- The first part of a stream. Without `fromStart` the count says what is left out at the end. -/
def Amount.first (a : Amount) (data : Data) : Data :=
  if a.octets then
    if a.fromStart then data.take a.n
    else
      let s := data.bytes
      Data.ofBytes (s.take (s.length - a.n))
  else
    let lines := linesOf (data.bounded (a.n + 1)).bytes
    Data.ofBytes (if a.fromStart then lines.take a.n else lines.take (lines.length - a.n)).flatten

/-- The last part of a text. With `fromStart` it starts at the counted place. -/
def Amount.last (a : Amount) (s : Bytes) : Bytes :=
  if a.octets then s.drop (if a.fromStart then a.n - 1 else s.length - a.n)
  else
    let lines := linesOf s
    (lines.drop (if a.fromStart then a.n - 1 else lines.length - a.n)).flatten

/-- Options such as `-3` and `+3` written out. -/
def spelledOut (isTail : Bool) (args : List Bytes) : List Bytes :=
  match args with
  | first :: rest =>
    match first with
    | Ascii.minus :: d :: more =>
      let digits := (d :: more).takeWhile Ascii.isDigit
      if digits.isEmpty then args
      else
        match (d :: more).drop digits.length with
        | [] => utf8 "-n" :: digits :: rest
        | [0x63] => utf8 "-c" :: digits :: rest
        | [0x71] => utf8 "-q" :: utf8 "-n" :: digits :: rest
        | _ => args
    | Ascii.plus :: digits =>
      if isTail && !digits.isEmpty && digits.all Ascii.isDigit && rest.length ≤ 1 then utf8 "-n" :: first :: rest else args
    | _ => args
  | [] => []

/-- The amount that the options ask for; an error is what is wrong. -/
def amount (isTail : Bool) (g : Given) : Except Bytes Amount :=
  match g.options.reverse.find? fun o => o.1 = 'n' || o.1 = 'c' with
  | none => .ok { fromStart := !isTail }
  | some (letter, text) =>
    let octets := letter = 'c'
    let (sign, digits) : Option UInt8 × Bytes := match text with
      | b :: rest => if b == Ascii.minus || b == Ascii.plus then (some b, rest) else (none, text)
      | [] => (none, [])
    match count? digits with
    | none => .error (utf8 (if octets then "invalid number of bytes: " else "invalid number of lines: ") ++ quoted text)
    | some n =>
      .ok { octets, n, fromStart := if isTail then sign = some Ascii.plus else sign ≠ some Ascii.minus }

def options : Options :=
  { flags := "qvz", valued := "nc"
    long := [("lines", 'n'), ("bytes", 'c'), ("quiet", 'q'), ("silent", 'q'), ("verbose", 'v')] }

/-- Shows a part of every file, with names between the parts of several files. -/
def tool (isTail : Bool) (c : Call) : Effect :=
  let name := if isTail then "tail" else "head"
  let o := if isTail then { options with flags := "qvzfF", valued := "ncs" } else options
  ({ c with args := spelledOut isTail c.args } : Call).withOptions name 1 o fun g =>
    match amount isTail g with
    | .error text => .fail 1 (utf8 name ++ utf8 ": " ++ text)
    | .ok a =>
      let paths := if g.words.isEmpty then [utf8 "-"] else g.words
      let titled := g.has 'v' || (1 < paths.length && !g.has 'q')
      let title (path : Bytes) (first : Bool) : Bytes :=
        if titled then
          (if first then [] else [Ascii.newline]) ++ utf8 "==> "
            ++ (if path == utf8 "-" then utf8 "standard input" else path) ++ utf8 " <==\n"
        else []
      let (out, err, _) := paths.foldl (fun (out, err, first) path =>
        match c.open? path with
        | .ok data =>
          let part := if isTail then Data.ofBytes (a.last (data.bounded 1).bytes) else a.first data
          (out ++ Data.ofBytes (title path first) ++ part, err, false)
        | .error text =>
          if text == utf8 "Is a directory" then
            (out ++ Data.ofBytes (title path first),
              err ++ utf8 name ++ utf8 ": error reading " ++ quoted path ++ utf8 ": " ++ text ++ utf8 "\n", false)
          else
            (out, err ++ utf8 name ++ utf8 ": cannot open " ++ quoted path ++ utf8 " for reading: " ++ text ++ utf8 "\n",
              first)) (([] : Data), ([] : Bytes), true)
      let leaves : Data := if !isTail && c.rewinds then Data.ofBytes (c.input.bytes.drop (a.first c.input).size) else []
      { out, err, status := if err.isEmpty then 0 else 1, reads := paths.contains (utf8 "-"), leaves
        lasts := if g.has 'f' || g.has 'F' then 1000000000000000 else 0 }

end Extent

namespace Count

/-- The counts of a text: lines, words, octets, and the width of the widest line. -/
structure Counts where
  lines : Nat := 0
  words : Nat := 0
  octets : Nat := 0
  width : Nat := 0

def Counts.add (a b : Counts) : Counts :=
  { lines := a.lines + b.lines, words := a.words + b.words, octets := a.octets + b.octets, width := max a.width b.width }

def widthOf (l : Bytes) : Nat :=
  l.foldl (fun n b => if b == Ascii.tab then n + 8 - n % 8 else if 0x20 ≤ b && b < 0x7f then n + 1 else n) 0

def ofText (s : Bytes) : Counts :=
  let (words, _) := s.foldl (fun (n, inside) b =>
    let space := Leading.isSpace b
    (if !space && !inside then n + 1 else n, !space)) (0, false)
  { lines := (s.filter (· == Ascii.newline)).length
    words
    octets := s.length
    width := (plainLines s).foldl (fun n l => max n (widthOf l)) 0 }

/-- The counts of a stream; a long run of one octet is not spelled out. -/
def ofData (d : Data) : Counts :=
  if d.all fun
    | .text _ => true
    | _ => false then ofText d.bytes
  else
    { lines := (d.map fun
        | .text s => (s.filter (· == Ascii.newline)).length
        | .run b n => if b == Ascii.newline then n else 0
        | .endless _ => 0).foldl (· + ·) 0
      words := 1
      octets := d.size }

def options : Options :=
  { flags := "lwcmL"
    long := [("lines", 'l'), ("words", 'w'), ("bytes", 'c'), ("chars", 'm'), ("max-line-length", 'L')] }

def tool (c : Call) : Effect :=
  c.withOptions "wc" 1 options fun g =>
    let usual := g.options.isEmpty
    let values (k : Counts) : List Nat :=
      (if usual || g.has 'l' then [k.lines] else []) ++ (if usual || g.has 'w' then [k.words] else [])
        ++ (if g.has 'm' then [k.octets] else []) ++ (if usual || g.has 'c' then [k.octets] else [])
        ++ (if g.has 'L' then [k.width] else [])
    let paths := if g.words.isEmpty then [utf8 "-"] else g.words
    let results := paths.map fun p => (p, c.open? p)
    let isRegular (p : Bytes) (r : Except Bytes Data) : Option Bool := match r with
      | .ok _ => some (p != utf8 "-" || c.rewinds)
      | .error text => if text == utf8 "Is a directory" then some false else none
    let counted := results.map fun (p, r) => (p, isRegular p r, (r.toOption.map ofData).getD {}, r)
    let size := (counted.map fun (_, regular, k, _) => if regular = some true then k.octets else 0).foldl (· + ·) 0
    let odd := counted.any fun (_, regular, _, _) => regular = some false
    let width := if paths.length = 1 && (values {}).length = 1 then 1
      else max (if odd then 7 else 1) (Integer.ofNat size).length
    let line (k : Counts) (name : Bytes) : Bytes :=
      Bytes.join [Ascii.space] ((values k).map fun n => Bytes.padLeft width (Integer.ofNat n)) ++ name ++ [Ascii.newline]
    let named (p : Bytes) : Bytes := if g.words.isEmpty then [] else [Ascii.space] ++ p
    let out := counted.flatMap fun (p, regular, k, _) => if regular.isSome then line k (named p) else []
    let total := counted.foldl (fun t (_, _, k, _) => t.add k) ({} : Counts)
    let err := counted.flatMap fun (p, _, _, r) =>
      match r with
      | .error text => utf8 "wc: " ++ p ++ utf8 ": " ++ text ++ utf8 "\n"
      | .ok _ => []
    { out := Data.ofBytes (out ++ (if 1 < paths.length then line total (utf8 " total") else []))
      err, status := if err.isEmpty then 0 else 1, reads := paths.contains (utf8 "-") }

end Count

/-- The lines of files from the last to the first. -/
def tacTool (c : Call) : Effect :=
  c.withOptions "tac" 1 { flags := "br", valued := "s" } fun g =>
    let paths := if g.words.isEmpty then [utf8 "-"] else g.words
    let shown := paths.foldl (fun (s : Shown) path =>
      match c.open? path with
      | .ok data => { s with out := s.out ++ ((linesOf (data.bounded 1).bytes).reverse.flatten) }
      | .error text =>
        if text == utf8 "Is a directory" then
          { s with err := s.err ++ utf8 "tac: " ++ path ++ utf8 ": read error: " ++ text ++ utf8 "\n" }
        else
          { s with err := s.err ++ utf8 "tac: failed to open " ++ quoted path ++ utf8 " for reading: " ++ text
              ++ utf8 "\n" }) {}
    { out := Data.ofBytes shown.out, err := shown.err, status := if shown.err.isEmpty then 0 else 1
      reads := paths.contains (utf8 "-") }

/-- The lines of files, each turned around. -/
def revTool (c : Call) : Effect :=
  let paths := if c.args.isEmpty then [utf8 "-"] else c.args
  let shown := paths.foldl (fun (s : Shown) path =>
    match c.open? path with
    | .ok data =>
      { s with out := s.out ++ ((linesOf (data.bounded 1).bytes).flatMap fun l =>
          (l.filter (· != Ascii.newline)).reverse ++ (if l.contains Ascii.newline then [Ascii.newline] else [])) }
    | .error text => { s with err := s.err ++ utf8 "rev: cannot open " ++ path ++ utf8 ": " ++ text ++ utf8 "\n" }) {}
  { out := Data.ofBytes shown.out, err := shown.err, status := if shown.err.isEmpty then 0 else 1
    reads := paths.contains (utf8 "-") }

/-- Copies its input to the output and to files. -/
def teeTool (c : Call) : Effect :=
  c.withOptions "tee" 1 { flags := "aip", long := [("append", 'a'), ("ignore-interrupts", 'i')] } fun g =>
    let (files, err) := g.words.foldl (fun (files, err) path =>
      let parts := c.path path
      let refuse (text : Bytes) : Files × Bytes := (files, err ++ utf8 "tee: " ++ path ++ utf8 ": " ++ text ++ utf8 "\n")
      match files.find parts with
      | .ok .directory => refuse (utf8 "Is a directory")
      | .ok (.file content executable) =>
        (files.put parts (.file ((if g.has 'a' then content else []) ++ c.input.bytes) executable), err)
      | .ok _ => (files, err)
      | .error .notDirectory => refuse (utf8 "Not a directory")
      | .error _ =>
        if files.get? parts.dropLast = some .directory && !path.isEmpty then (files.write parts c.input.bytes, err)
        else refuse missingText) (c.files, ([] : Bytes))
    { out := c.input, err, status := if err.isEmpty then 0 else 1, reads := true, files := some files }

end Stopwatch.Host
