import Stopwatch.Host.Shell.Reader

/-!
Commands of the shell language, from lists joined by signs down to the parts of words. Commands embedded in words are
read together with them.
-/

namespace Stopwatch.Host.Shell

/-- How far a list of commands goes. -/
inductive Extent where
  /-- To the end of its line. -/
  | line
  /-- Up to a closing word; at least one command. -/
  | body
  /-- Up to a closing word, maybe at once. -/
  | loose
  deriving DecidableEq

/-- The names that functions cannot have. -/
def specialNames : List String :=
  [".", ":", "break", "continue", "eval", "exec", "exit", "export", "readonly", "return", "set", "shift", "times",
    "trap", "unset"]

/-- Splits an assignment off the front of a word. -/
def assignment? (i : Input) : Option (Bytes × Input) :=
  let name := i.rest.takeWhile isNameOctet
  if i.rest.head?.any isNameStart && (i.rest.drop name.length).head? = some Ascii.equals then
    some (name, i.drop (name.length + 1))
  else none

/-- A single command in the making, everything latest first. -/
structure Draft where
  line : Nat
  assignments : List (Bytes × Word) := []
  words : List Word := []
  redirects : List Redirect := []

def Draft.finish (d : Draft) : Command := .simple d.assignments.reverse d.words.reverse d.redirects.reverse d.line

/-- The name that a draft gives a function, if it can be the start of a definition. -/
def Draft.functionName? (d : Draft) : Option Bytes :=
  match d.assignments, d.words, d.redirects with
  | [], [name], [] =>
    match name with
    | [.literal s false] => some s
    | _ => some []
  | _, _, _ => none

/-- A command with redirections around it. -/
def Command.redirectedBy (c : Command) (line : Nat) (rs : List Redirect) : Command :=
  if rs.isEmpty then c else .redirected c rs line

mutual

/-- What a dollar sign stands for, from behind it. -/
def dollarPart (place : Place) : Nat → Input → Reading (Option Part)
  | 0, i => .ok (none, i)
  | fuel + 1, i =>
    let i := i.joined
    let quoted := place.isQuoted
    match i.rest with
    | [] => .ok (none, i)
    | b :: rest =>
      if b == Ascii.openBrace then bracedPart place fuel i.skip.joined
      else if b == Ascii.openParen then
        if rest.head? = some Ascii.openParen then
          match parts .sum 0 fuel (i.drop 2) [] with
          | .error e => .error e
          | .ok (expression, next) => .ok (some (.arithmetic expression quoted), next)
        else
          match commands .loose true fuel i.skip none with
          | .error e => .error e
          | .ok (script, next) =>
            if next.sign = .closeParen then .ok (some (.command (script.getD .empty) quoted), next.skip)
            else next.unexpected (some ")")
      else if isNameStart b then
        let name := i.rest.takeWhile isNameOctet
        .ok (some (.named name quoted), i.drop name.length)
      else if Ascii.isDigit b || isSpecial b then .ok (some (.named [b] quoted), i.skip)
      else .ok (none, i)

/-- The part that stands between braces, from behind the opening one. -/
def bracedPart (place : Place) : Nat → Input → Reading (Option Part)
  | 0, i => .ok (none, i)
  | fuel + 1, i =>
    let quoted := place.isQuoted
    let malformed (_ : Unit) : Reading (Option Part) :=
      match parts (if quoted then .quotedBraces else .braces) 0 fuel i [] with
      | .error e => .error e
      | .ok (_, next) => .ok (some .malformed, next)
    match braceName i.rest with
    | none => malformed ()
    | some (true, name, rest) => .ok (some (.size name quoted), { i with rest := rest.drop 1 })
    | some (false, name, rest) =>
      match braceOperator rest with
      | none => malformed ()
      | some (none, rest) => .ok (some (.named name quoted), { i with rest })
      | some (some (operator, strong), rest) =>
        let cuts := operator = .dropStart || operator = .dropEnd
        match parts (if quoted && !cuts then .quotedBraces else .braces) 0 fuel { i with rest } [] with
        | .error e => .error e
        | .ok (word, next) => .ok (some (.modified name operator strong word quoted), next)

/-- The parts of a word, onto those read before. The level counts open parentheses or quotes inside braces. -/
def parts (place : Place) (level : Nat) : Nat → Input → List Part → Reading Word
  | 0, i, acc => .ok (turnParts acc, i)
  | fuel + 1, i, acc =>
    let i := i.joined
    let quoted := place.isQuoted
    match i.rest with
    | [] =>
      match place.unfinished with
      | some complaint => i.fail complaint
      | none => .ok (turnParts acc, i)
    | b :: rest =>
      let plain (_ : Unit) : Reading Word := parts place level fuel i.skip (addOctet b quoted acc)
      if (place = .plain || place = .mark) && isMeta b then .ok (turnParts acc, i)
      else if b == Ascii.doubleQuote && place = .quotes then .ok (turnParts acc, i.skip)
      else if b == Ascii.doubleQuote && place = .quotedBraces then parts place (1 - level) fuel i.skip acc
      else if b == Ascii.closeBrace && (place = .braces || (place = .quotedBraces && level = 0)) then
        .ok (turnParts acc, i.skip)
      else if b == Ascii.openParen && place = .sum then parts place (level + 1) fuel i.skip (addOctet b quoted acc)
      else if b == Ascii.closeParen && place = .sum then
        if 0 < level then parts place (level - 1) fuel i.skip (addOctet b quoted acc)
        else if i.skip.joined.rest.head? = some Ascii.closeParen then .ok (turnParts acc, i.skip.joined.skip)
        else plain ()
      else if b == Ascii.backslash then
        match rest with
        | [] => parts place level fuel i.skip (addOctet b true acc)
        | c :: _ =>
          if quoted then
            parts place level fuel i.skip.skip ((escapedIn place c).foldl (fun acc b => addOctet b true acc) acc)
          else parts place level fuel i.skip.skip (addOctet c true acc)
      else if b == Ascii.singleQuote && !quoted then
        match Bytes.cut Ascii.singleQuote rest with
        | none => { i with line := i.line + (rest.filter (· == Ascii.newline)).length }.fail "Unterminated quoted string"
        | some (inner, after) =>
          let line := i.line + (inner.filter (· == Ascii.newline)).length
          parts place level fuel { i with rest := after, line } (.literal inner.reverse true :: acc)
      else if b == Ascii.doubleQuote && !quoted then
        match parts .quotes 0 fuel i.skip [] with
        | .error e => .error e
        | .ok (inner, next) =>
          let inner := match inner with
            | [.named name true] => if name == utf8 "@" then inner else .literal [] true :: inner
            | inner => .literal [] true :: inner
          parts place level fuel next (turnParts inner ++ acc)
      else if b == Ascii.backquote && place ≠ .mark then
        match backquoted quoted rest [] with
        | none =>
          { i with line := i.line + (rest.filter (· == Ascii.newline)).length }.fail "EOF in backquote substitution"
        | some (script, after) =>
          let taken := i.rest.take (i.rest.length - after.length)
          let next := { i with rest := after, line := i.line + (taken.filter (· == Ascii.newline)).length }
          match commands .loose true fuel { i with rest := script.reverse } none with
          | .error e => .error e
          | .ok (script, _) => parts place level fuel next (.command (script.getD .empty) quoted :: acc)
      else if b == Ascii.dollar && place ≠ .mark then
        match dollarPart place fuel i.skip with
        | .error e => .error e
        | .ok (some part, next) => parts place level fuel next (part :: acc)
        | .ok (none, next) => parts place level fuel next (addOctet b quoted acc)
      else plain ()

/-- The redirection at which reading stands. -/
def redirect : Nat → Input → Reading Redirect
  | 0, i => i.unexpected none
  | fuel + 1, i =>
    let digits := i.rest.takeWhile Ascii.isDigit
    let j := i.drop digits.length
    let descriptor (standard : Nat) : Nat := digits.foldl (fun _ d => d.toNat - 48) standard
    let withWord (standard : Nat) (kind : RedirectKind) (signs : Nat) : Reading Redirect :=
      let k := (j.drop signs).blanks
      match k.sign with
      | .word | .keyword _ =>
        match parts .plain 0 fuel k [] with
        | .error e => .error e
        | .ok (word, next) => .ok (.mk (descriptor standard) kind word, next)
      | _ => k.unexpected none
    if j.startsWith "<<" then
      let dropTabs := j.startsWith "<<-"
      let k := (j.drop (if dropTabs then 3 else 2)).blanks
      match k.sign with
      | .word | .keyword _ =>
        match parts .mark 0 fuel k [] with
        | .error e => .error e
        | .ok (word, next) =>
          let closing := (plainText? word).getD []
          let quoted := word.any Part.isQuoted
          let line := next.rest.takeWhile (· != Ascii.newline)
          let (text, rest, n) :=
            hereLines closing dropTabs (!quoted) readingBound false ((next.rest.drop line.length).drop 1) [] 0
          let after : Input := { next with rest := line ++ [Ascii.newline] ++ rest, held := next.held + n }
          if quoted then .ok (.mk (descriptor 0) .here [.literal text true], after)
          else
            match parts .text 0 fuel { rest := text, line := next.line + next.held + 1 } [] with
            | .error e => .error e
            | .ok (target, _) => .ok (.mk (descriptor 0) .here target, after)
      | _ => k.unexpected none
    else if j.startsWith "<&" then withWord 0 .duplicate 2
    else if j.startsWith "<>" then withWord 0 .both 2
    else if j.startsWith "<" then withWord 0 .input 1
    else if j.startsWith ">>" then withWord 1 .append 2
    else if j.startsWith ">&" then withWord 1 .duplicate 2
    else if j.startsWith ">|" then withWord 1 .force 2
    else withWord 1 .output 1

/-- A command with the redirections behind it. -/
def withRedirects (wrap : List Redirect → Command) : Nat → Input → List Redirect → Reading Command
  | 0, i, _ => .ok (wrap [], i)
  | fuel + 1, i, rs =>
    let i := i.blanks
    if i.sign = .redirection then
      match redirect fuel i with
      | .error e => .error e
      | .ok (r, next) => withRedirects wrap fuel next (r :: rs)
    else .ok (wrap rs.reverse, i)

/-- The words of a single command, onto what was read before. -/
def simpleCommand : Nat → Input → Draft → Reading Command
  | 0, i, d => .ok (d.finish, i)
  | fuel + 1, i, d =>
    let i := i.blanks
    let i := if d.words.isEmpty then i.command else i
    let word (_ : Unit) : Reading Command :=
      match (if d.words.isEmpty then assignment? i else none) with
      | some (name, next) =>
        match parts .plain 0 fuel next [] with
        | .error e => .error e
        | .ok (value, next) => simpleCommand fuel next { d with assignments := (name, value) :: d.assignments }
      | none =>
        match parts .plain 0 fuel i [] with
        | .error e => .error e
        | .ok (word, next) => simpleCommand fuel next { d with words := word :: d.words }
    match i.sign with
    | .redirection =>
      match redirect fuel i with
      | .error e => .error e
      | .ok (r, next) => simpleCommand fuel next { d with redirects := r :: d.redirects }
    | .word => word ()
    | .keyword _ => word ()
    | .openParen =>
      match d.functionName? with
      | none => .ok (d.finish, i)
      | some name =>
        let next := i.skip.blanks
        if next.sign ≠ .closeParen then next.unexpectedAs true (some ")")
        else if !isName name || specialNames.any fun n => utf8 n == name then next.skip.fail "Bad function name"
        else
          match command fuel next.skip.lines.command with
          | .error e => .error e
          | .ok (inner, next) => .ok (.define name inner, next)
    | _ => .ok (d.finish, i)

/-- The words of a loop up to the sign that ends them. -/
def loopWords : Nat → Input → List Word → Reading (List Word)
  | 0, i, acc => .ok (acc.reverse, i)
  | fuel + 1, i, acc =>
    let i := i.blanks
    match i.sign with
    | .word | .keyword _ =>
      match parts .plain 0 fuel i [] with
      | .error e => .error e
      | .ok (word, next) => loopWords fuel next (word :: acc)
    | _ => .ok (acc.reverse, i)

/-- The patterns of an arm up to the parenthesis. -/
def armPatterns : Nat → Input → List Word → Reading (List Word)
  | 0, i, acc => .ok (acc.reverse, i)
  | fuel + 1, i, acc =>
    let i := i.blanks
    let pattern : Reading Word := match i.sign with
      | .word | .keyword _ => parts .plain 0 fuel i []
      | sign => .ok ([], i.past sign)
    match pattern with
    | .error e => .error e
    | .ok (word, next) =>
      let next := next.blanks
      match next.sign with
      | .bar => armPatterns fuel next.skip (word :: acc)
      | .closeParen => .ok ((word :: acc).reverse, next.skip)
      | _ => next.unexpected (some ")")

/-- Commands one after the other. -/
def commands (extent : Extent) (first : Bool) : Nat → Input → Option Command → Reading (Option Command)
  | 0, i, acc => .ok (acc, i)
  | fuel + 1, i, acc =>
    let i := (if extent = .line then i.blanks else i.lines).command
    let sign := i.sign
    if sign = .newline then .ok (acc, i.skip)
    else if sign = .ending then .ok (acc, i)
    else if (extent = .loose || (extent = .body && !first)) && sign.endsList then .ok (acc, i)
    else
      match andOr fuel i with
      | .error e => .error e
      | .ok (c, next) =>
        let next := next.blanks
        match next.sign with
        | .ampersand => commands extent false fuel next.skip (some (Command.then acc (.background c)))
        | .semicolon => commands extent false fuel next.skip (some (Command.then acc c))
        | .newline => commands extent false fuel next (some (Command.then acc c))
        | .ending => .ok (some (Command.then acc c), next)
        | _ => if extent = .line then next.unexpected none else .ok (some (Command.then acc c), next)

/-- Pipelines joined by `&&` and `||`. -/
def andOr : Nat → Input → Reading Command
  | 0, i => .ok (.empty, i)
  | fuel + 1, i =>
    match pipeline fuel i with
    | .error e => .error e
    | .ok (c, next) => andOrRest fuel next c

def andOrRest : Nat → Input → Command → Reading Command
  | 0, i, acc => .ok (acc, i)
  | fuel + 1, i, acc =>
    let i := i.blanks
    let sign := i.sign
    if sign = .and || sign = .or then
      match pipeline fuel (i.drop 2).lines with
      | .error e => .error e
      | .ok (c, next) => andOrRest fuel next (if sign = .and then .and acc c else .or acc c)
    else .ok (acc, i)

/-- Commands joined by bars. -/
def pipeline : Nat → Input → Reading Command
  | 0, i => .ok (.empty, i)
  | fuel + 1, i =>
    let i := i.blanks.command
    let negated := i.sign = .keyword "!"
    match command fuel (if negated then i.skip else i) with
    | .error e => .error e
    | .ok (c, next) =>
      match pipelineRest fuel next [c] with
      | .error e => .error e
      | .ok ([c], next) => .ok (if negated then .pipeline true [c] else c, next)
      | .ok (cs, next) => .ok (.pipeline negated cs, next)

def pipelineRest : Nat → Input → List Command → Reading (List Command)
  | 0, i, acc => .ok (acc.reverse, i)
  | fuel + 1, i, acc =>
    let i := i.blanks
    if i.sign = .bar then
      match command fuel i.skip.lines with
      | .error e => .error e
      | .ok (c, next) => pipelineRest fuel next (c :: acc)
    else .ok (acc.reverse, i)

/-- A list of commands up to a closing word. -/
def body : Nat → Input → Reading Command
  | 0, i => .ok (.empty, i)
  | fuel + 1, i =>
    match commands .body true fuel i none with
    | .error e => .error e
    | .ok (c, next) => .ok (c.getD .empty, next)

/-- One command. -/
def command : Nat → Input → Reading Command
  | 0, i => .ok (.empty, i)
  | fuel + 1, i =>
    let i := i.blanks.command
    let line := i.line
    match i.sign with
    | .keyword k =>
      if k = "if" then
        match ifTail fuel (i.drop 2) with
        | .error e => .error e
        | .ok (c, next) => withRedirects (c.redirectedBy line) fuel next []
      else if k = "while" || k = "until" then
        match body fuel (i.drop 5) with
        | .error e => .error e
        | .ok (condition, next) =>
          match doBody fuel next with
          | .error e => .error e
          | .ok (inner, next) => withRedirects ((Command.loop (k = "while") condition inner).redirectedBy line) fuel next []
      else if k = "for" then
        let j := (i.drop 3).blanks
        match j.plainWord? with
        | none => (if j.sign = .newline then j.skip else j).fail "Bad for loop variable"
        | some name =>
          if !isName name then j.fail "Bad for loop variable"
          else
            let next := (j.drop name.length).lines
            let rounds (words : Option (List Word)) (inner : Command) : List Redirect → Command :=
              (Command.forEach name words inner line).redirectedBy line
            match next.sign with
            | .keyword "in" =>
              match loopWords fuel (next.drop 2) [] with
              | .error e => .error e
              | .ok (words, next) =>
                match next.sign with
                | .newline | .semicolon => forBody (rounds (some words)) fuel next.skip
                | _ => next.unexpected none
            | .semicolon => forBody (rounds none) fuel next.skip
            | _ => forBody (rounds none) fuel next
      else if k = "case" then
        let j := (i.drop 4).blanks
        match j.sign with
        | .word | .keyword _ =>
          match parts .plain 0 fuel j [] with
          | .error e => .error e
          | .ok (word, next) =>
            match next.expect "in" with
            | .error e => .error e
            | .ok next =>
              match caseArms fuel next [] with
              | .error e => .error e
              | .ok (arms, next) => withRedirects ((Command.select word arms line).redirectedBy line) fuel next []
        | _ => j.unexpected none
      else if k = "\x7b" then
        match body fuel i.skip with
        | .error e => .error e
        | .ok (inner, next) =>
          match next.expect "\x7d" with
          | .error e => .error e
          | .ok next => withRedirects ((Command.group inner).redirectedBy line) fuel next []
      else i.unexpected none
    | .openParen =>
      match body fuel i.skip with
      | .error e => .error e
      | .ok (inner, next) =>
        if next.sign = .closeParen then withRedirects ((Command.subshell inner).redirectedBy line) fuel next.skip []
        else next.unexpected (some ")")
    | .word => simpleCommand fuel i { line }
    | .redirection => simpleCommand fuel i { line }
    | _ => i.unexpected none

/-- The rest of a condition, from behind its first word. -/
def ifTail : Nat → Input → Reading Command
  | 0, i => .ok (.empty, i)
  | fuel + 1, i =>
    match body fuel i with
    | .error e => .error e
    | .ok (condition, next) =>
      match next.expect "then" with
      | .error e => .error e
      | .ok next =>
        match body fuel next with
        | .error e => .error e
        | .ok (inner, next) =>
          match next.sign with
          | .keyword "elif" =>
            match ifTail fuel (next.drop 4) with
            | .error e => .error e
            | .ok (alternative, next) => .ok (.ifThen condition inner alternative, next)
          | .keyword "else" =>
            match body fuel (next.drop 4) with
            | .error e => .error e
            | .ok (alternative, next) =>
              (next.expect "fi").map fun next => (.ifThen condition inner alternative, next)
          | _ => (next.expect "fi").map fun next => (.ifThen condition inner .empty, next)

/-- The body of a loop. -/
def doBody : Nat → Input → Reading Command
  | 0, i => .ok (.empty, i)
  | fuel + 1, i =>
    match i.expect "do" with
    | .error e => .error e
    | .ok next =>
      match body fuel next with
      | .error e => .error e
      | .ok (inner, next) => (next.expect "done").map fun next => (inner, next)

/-- The body of a loop over words, and what comes behind. -/
def forBody (wrap : Command → List Redirect → Command) : Nat → Input → Reading Command
  | 0, i => .ok (.empty, i)
  | fuel + 1, i =>
    match doBody fuel i with
    | .error e => .error e
    | .ok (inner, next) => withRedirects (wrap inner) fuel next []

/-- The arms of a selection. -/
def caseArms : Nat → Input → List (List Word × Command) → Reading (List (List Word × Command))
  | 0, i, acc => .ok (acc.reverse, i)
  | fuel + 1, i, acc =>
    let i := i.lines
    if i.sign = .keyword "esac" then .ok (acc.reverse, i.drop 4)
    else
      match armPatterns fuel (if i.sign = .openParen then i.skip else i) [] with
      | .error e => .error e
      | .ok (patterns, next) =>
        match commands .loose true fuel next none with
        | .error e => .error e
        | .ok (inner, next) =>
          let arms := (patterns, inner.getD .empty) :: acc
          match next.sign with
          | .endArm => caseArms fuel (next.drop 2) arms
          | .keyword "esac" => .ok (arms.reverse, next.drop 4)
          | _ => next.unexpected (some ";;")

end

/-- The commands of the next line, with all that belongs to it; none at the end of the text. -/
def nextLine (i : Input) : Except SyntaxError (Option (Command × Input)) :=
  let i := i.lines
  if i.rest.isEmpty then .ok none
  else
    match commands .line true readingBound i none with
    | .error e => .error e
    | .ok (c, next) => .ok (some (c.getD .empty, next))

end Stopwatch.Host.Shell
