import Stopwatch.Host.Call
import Stopwatch.Host.Regex.Parse

/-!
Selecting lines by patterns.
-/

namespace Stopwatch.Host.Grep

/-- What a search looks for and how it shows what it finds. -/
structure Search where
  patterns : List Regex
  inverted : Bool := false
  wholeWords : Bool := false
  wholeLines : Bool := false
  most : Option Nat := none
  before : Nat := 0
  after : Nat := 0
  numbered : Bool := false
  onlyMatches : Bool := false
  count : Bool := false
  /-- Whether only the names of files with or without matches are shown. -/
  listing : Option Bool := none
  quiet : Bool := false
  /-- Whether lines come with the names of their files. -/
  named : Bool := false
  binary : Bool := true

def standardName : Bytes := utf8 "(standard input)"

/-- A text as a pattern that stands for itself. -/
def plainRegex (ignoresCase : Bool) (s : Bytes) : Regex :=
  s.foldr (fun b r => .seq (.octets (({ ignoresCase } : Regex.Form).folded [b])) r) .empty

namespace Search

/-- The longest match of one pattern at a place that the rules about words and lines allow. -/
def matchAt (q : Search) (p : Regex.Place) (r : Regex) : Option Regex.Place :=
  (r.ends p).find? fun e =>
    (!q.wholeLines || (p.before.isEmpty && e.rest.isEmpty))
    && (!q.wholeWords || (!p.before.head?.any Regex.isWord && !e.rest.head?.any Regex.isWord))

/-- The first match in the rest of a line: the text before it from the place on, the match, and the place behind. -/
def nextMatch (q : Search) : Nat → Regex.Place → Option (Bytes × Regex.Place)
  | 0, _ => none
  | fuel + 1, p =>
    let found := (q.patterns.filterMap (q.matchAt p)).mergeSort fun a b => a.left ≤ b.left
    match found with
    | e :: _ => some (p.rest.take (p.left - e.left), e)
    | [] => if p.rest.isEmpty then none else nextMatch q fuel (p.forward 1)

def selects (q : Search) (line : Bytes) : Bool :=
  (q.nextMatch (line.length + 1) { before := [], rest := line }).isSome != q.inverted

/-- The matches of a line that have text. -/
def texts (q : Search) : Nat → Regex.Place → List Bytes
  | 0, _ => []
  | fuel + 1, p =>
    match q.nextMatch (p.left + 1) p with
    | none => []
    | some ([], e) => if e.rest.isEmpty then [] else texts q fuel (e.forward 1)
    | some (s, e) => s :: texts q fuel e

/-- A line as it is shown, with its name and number. -/
def shown (q : Search) (name : Bytes) (mark : UInt8) (number : Nat) (text : Bytes) : Bytes :=
  (if q.named then name ++ [mark] else []) ++ (if q.numbered then Integer.ofNat number ++ [mark] else [])
    ++ text ++ [Ascii.newline]

/-- The lines around the selected ones: numbers of selected lines in order give the output, with a mark between groups
that do not touch. -/
def withContext (q : Search) (name : Bytes) (lines : List Bytes) (selected : List Nat) : Bytes :=
  let indexed := lines.zipIdx
  let near (i : Nat) : Bool := selected.any fun n => n ≤ i + q.before && i ≤ n + q.after
  let kept := indexed.filter fun (_, i) => near i
  let (out, _) := kept.foldl (fun (out, last) (line, i) =>
    let gap : Bool := match last with
      | some l => decide (l + 1 < i)
      | none => false
    let mark := if selected.contains i then Ascii.colon else Ascii.minus
    (out ++ (if gap then utf8 "--\n" else []) ++ q.shown name mark (i + 1) line, some i)) (([] : Bytes), (none : Option Nat))
  out

/-- What is shown of one file, and whether a line was selected. -/
def run (q : Search) (name : Bytes) (content : Bytes) : Bytes × Bool :=
  let lines := plainLines content
  let selected := (lines.zipIdx.filter fun (line, _) => q.selects line).map Prod.snd
  let selected := match q.most with
    | some n => selected.take n
    | none => selected
  let found := !selected.isEmpty
  if q.quiet then ([], found)
  else
    match q.listing with
    | some wanted => (if found = wanted then name ++ [Ascii.newline] else [], found)
    | none =>
      if q.count then
        ((if q.named then name ++ [Ascii.colon] else []) ++ Integer.ofNat selected.length ++ [Ascii.newline], found)
      else if q.binary && content.contains Ascii.nul then
        (if found then utf8 "grep: " ++ name ++ utf8 ": binary file matches\n" else [], found)
      else if q.onlyMatches then
        if q.inverted then ([], found)
        else
          (selected.flatMap fun i =>
            let line := lines[i]?.getD []
            (q.texts (line.length + 2) { before := [], rest := line }).flatMap fun t =>
              q.shown name Ascii.colon (i + 1) t, found)
      else if q.before = 0 && q.after = 0 then
        (selected.flatMap fun i => q.shown name Ascii.colon (i + 1) (lines[i]?.getD []), found)
      else (q.withContext name lines selected, found)

end Search

def options : Options :=
  { flags := "EFGPivcnlLhHoqsrRwxaybUzZT", valued := "efmABC"
    long := [("extended-regexp", 'E'), ("fixed-strings", 'F'), ("basic-regexp", 'G'), ("perl-regexp", 'P'),
      ("ignore-case", 'i'), ("invert-match", 'v'), ("count", 'c'), ("line-number", 'n'), ("files-with-matches", 'l'),
      ("files-without-match", 'L'), ("no-filename", 'h'), ("with-filename", 'H'), ("only-matching", 'o'), ("quiet", 'q'),
      ("silent", 'q'), ("no-messages", 's'), ("recursive", 'r'), ("word-regexp", 'w'), ("line-regexp", 'x'),
      ("text", 'a'), ("regexp", 'e'), ("file", 'f'), ("max-count", 'm'), ("after-context", 'A'),
      ("before-context", 'B'), ("context", 'C')] }

def usage : Bytes := utf8 "Usage: grep [OPTION]... PATTERNS [FILE]...\nTry 'grep --help' for more information.\n"

/-- The words of a call with counts such as `-3` written as context options. -/
def spelledOut (args : List Bytes) : List Bytes :=
  let front := args.takeWhile fun a => a != utf8 "--"
  front.map (fun a =>
    match a with
    | Ascii.minus :: d :: more => if (d :: more).all Ascii.isDigit then utf8 "-C" ++ d :: more else a
    | _ => a) ++ args.drop front.length

/-- The files below a directory, each with the path that leads to it. -/
def below (c : Call) (path : Bytes) : List Bytes :=
  let parts := c.path path
  let found := c.files.filterMap fun (p, node) =>
    match node with
    | .file _ _ => if parts.isPrefixOf p then some (p.drop parts.length) else none
    | _ => none
  let front := if path.isEmpty then [] else if path.getLast? = some Ascii.slash then path else path ++ [Ascii.slash]
  found.map fun p => if p.isEmpty then path else front ++ Bytes.join [Ascii.slash] p

/-- The patterns as regular expressions. -/
def compile (g : Given) (extended fixed : Bool) (patterns : List Bytes) : Except Regex.Trouble (List Regex) :=
  let ignoresCase := g.has 'i' || g.has 'y'
  if fixed then .ok (patterns.map (plainRegex ignoresCase))
  else patterns.mapM (Regex.parse { extended, ignoresCase, lenient := true })

/-- Searches every input. -/
def searchAll (c : Call) (g : Given) (q : Search) (paths : List Bytes) : Effect :=
  let results := paths.map fun path =>
    let name := if path == utf8 "-" then standardName else path
    match c.open? path with
    | .ok data => (q.run name (data.bounded 1).bytes, [])
    | .error text => (([], false), [if g.has 's' then [] else utf8 "grep: " ++ path ++ utf8 ": " ++ text ++ utf8 "\n"])
  let found := results.any fun r => r.1.2
  let failed := results.any fun r => !r.2.isEmpty
  { out := Data.ofBytes (results.flatMap fun r => r.1.1)
    err := results.flatMap fun r => r.2.flatten
    status := if found && q.quiet then 0 else if failed then 2 else if found then 0 else 1
    reads := paths.contains (utf8 "-") }

/-- The program; some of its names choose how patterns are written. -/
def tool (kind : Option Char) (c : Call) : Effect :=
  match options.parse false (c.args.length + 1) (spelledOut c.args) {} with
  | .error message => { err := utf8 "grep: " ++ message ++ [Ascii.newline] ++ usage, status := 2 }
  | .ok g =>
    let numbers := g.options.filter fun o => o.1 = 'A' || o.1 = 'B' || o.1 = 'C' || o.1 = 'm'
    match numbers.find? fun o => (naturalOf o.2).isNone with
    | some ('m', _) => .fail 2 (utf8 "grep: invalid max count")
    | some (_, v) => .fail 2 (utf8 "grep: " ++ v ++ utf8 ": invalid context length argument")
    | none =>
      let number (letter : Char) : Option Nat := (g.value? letter).bind naturalOf
      let given := (g.options.filter fun o => o.1 = 'e').map Prod.snd
      let lists := (g.options.filter fun o => o.1 = 'f').map Prod.snd
      let listed := lists.map fun path => (path, c.open? path)
      match listed.find? fun l => !l.2.isOk with
      | some (path, _) => .fail 2 (utf8 "grep: " ++ path ++ utf8 ": " ++ missingText)
      | none =>
        let fromFiles := listed.flatMap fun l => plainLines ((l.2.toOption.getD []).bytes)
        let explicit := !given.isEmpty || !lists.isEmpty
        match (if explicit then some (given.flatMap (Bytes.split Ascii.newline) ++ fromFiles, g.words)
          else g.words.head?.map fun p => (Bytes.split Ascii.newline p, g.words.tail)) with
        | none => { err := usage, status := 2 }
        | some (patterns, words) =>
          let last := (g.options.reverse.find? fun o => o.1 = 'E' || o.1 = 'F' || o.1 = 'G' || o.1 = 'P').map Prod.fst
          let form := match last with
            | some f => some f
            | none => kind
          let extended := form = some 'E' || form = some 'P'
          match compile g extended (form = some 'F') patterns with
          | .error trouble => .fail 2 (utf8 "grep: " ++ utf8 trouble.message)
          | .ok regexes =>
            let recursive := g.has 'r' || g.has 'R'
            let paths := if words.isEmpty then (if recursive then [[]] else [utf8 "-"]) else words
            let paths := if recursive then
              paths.flatMap fun p => if (c.find (if p.isEmpty then utf8 "." else p)).toOption = some .directory
                then below c p else [p] else paths
            let context := number 'C'
            let q : Search :=
              { patterns := regexes
                inverted := g.has 'v'
                wholeWords := g.has 'w'
                wholeLines := g.has 'x'
                most := number 'm'
                before := (number 'B').getD (context.getD 0)
                after := (number 'A').getD (context.getD 0)
                numbered := g.has 'n'
                onlyMatches := g.has 'o'
                count := g.has 'c'
                listing := if g.has 'L' then some false else if g.has 'l' then some true else none
                quiet := g.has 'q'
                named := !g.has 'h' && (g.has 'H' || 1 < paths.length || recursive)
                binary := !g.has 'a' }
            searchAll c g q paths

end Stopwatch.Host.Grep
