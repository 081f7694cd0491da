import Stopwatch.Host.Condition
import Stopwatch.Host.Printf
import Stopwatch.Host.Tools.Columns
import Stopwatch.Host.Tools.Dump
import Stopwatch.Host.Tools.Grep
import Stopwatch.Host.Tools.Lines
import Stopwatch.Host.Tools.Numbers
import Stopwatch.Host.Tools.Sed
import Stopwatch.Host.Tools.Sorting
import Stopwatch.Host.Tools.Translate
import Stopwatch.Host.Tools.Tree

/-!
The programs of the system that work on their own, by name: what they print, how they end, and how long they take.
-/

namespace Stopwatch.Host

/-- A span such as `2`, `0.5` or `1m`, in nanoseconds. -/
def spanOf (s : Bytes) : Option Nat := do
  let (unit, body) := match s.getLast? with
    | some 0x73 => (1, s.dropLast)
    | some 0x6d => (60, s.dropLast)
    | some 0x68 => (3600, s.dropLast)
    | some 0x64 => (86400, s.dropLast)
    | _ => (1, s)
  if body == utf8 "infinity" || body == utf8 "inf" then some (unit * 1000000000 * 1000000000)
  else
    match Bytes.split Ascii.dot body with
    | [whole] => (naturalOf whole).map fun n => n * unit * 1000000000
    | [whole, part] =>
      if whole.isEmpty && part.isEmpty then none
      else do
        let n ← if whole.isEmpty then some 0 else naturalOf whole
        let digits := (part ++ List.replicate 9 Ascii.zero).take 9
        let f ← naturalOf digits
        some ((n * 1000000000 + f) * unit)
    | _ => none

def sleepTool (c : Call) : Effect :=
  c.withOptions "sleep" 1 { flags := "" } fun g =>
    if g.words.isEmpty then .misuse "sleep" 1 (utf8 "missing operand")
    else
      let bad := g.words.filter fun a => (spanOf a).isNone
      if bad.isEmpty then { lasts := (g.words.filterMap spanOf).foldl (· + ·) 0 }
      else
        .fail 1 ((Bytes.join [Ascii.newline] (bad.map fun w => utf8 "sleep: invalid time interval " ++ quoted w))
          ++ utf8 "\nTry 'sleep --help' for more information.")

/-- The plain `echo` program: options, and no escapes unless asked for. -/
def echoTool (c : Call) : Effect :=
  let isOption (a : Bytes) : Bool := match a with
    | Ascii.minus :: b :: rest => (b :: rest).all fun x => x == 0x6e || x == 0x65 || x == 0x45
    | _ => false
  let options := c.args.takeWhile isOption
  let words := Bytes.join [Ascii.space] (c.args.drop options.length)
  let has (letter : UInt8) : Bool := options.any fun o => o.contains letter
  let (text, stops) := if has 0x65 then Printf.echoText words else (words, false)
  .print (if has 0x6e || stops then text else text ++ [Ascii.newline])

def printfTool (c : Call) : Effect :=
  match c.args with
  | [] => .misuse "printf" 1 (utf8 "missing operand")
  | format :: args =>
    let o := Printf.print format args
    let complaints := o.flaws.flatMap fun (arg, flaw) =>
      utf8 "printf: " ++ quoted arg ++ utf8 ": " ++ utf8 (match flaw with
        | .noNumber => "expected a numeric value\n"
        | .partly => "value not completely converted\n"
        | .outOfRange => "Numerical result out of range\n")
    let bad := match o.bad with
      | some text => utf8 "printf: " ++ text ++ utf8 ": invalid conversion specification\n"
      | none => []
    { out := Data.ofBytes o.text, err := complaints ++ bad, status := if complaints.isEmpty && bad.isEmpty then 0 else 1 }

def testTool (name : Bytes) (c : Call) : Effect :=
  match Condition.test name c with
  | .ok b => { status := if b then 0 else 1 }
  | .error text => .fail 2 (name ++ utf8 ": " ++ text)

def yesTool (c : Call) : Effect :=
  let words := if c.args.head? = some (utf8 "--") then c.args.tail else c.args
  { out := [.endless ((if words.isEmpty then utf8 "y" else Bytes.join [Ascii.space] words) ++ [Ascii.newline])] }

/-- The values of variables, or all of them. -/
def printenvTool (c : Call) : Effect :=
  let names := c.args.filter fun a => a != utf8 "--"
  if names.isEmpty then .print (c.environment.flatMap fun (k, v) => k ++ utf8 "=" ++ v ++ [Ascii.newline])
  else
    let values := names.map fun n => c.environment.lookup n
    { out := Data.ofBytes (unlines (values.filterMap id)), status := if values.all Option.isSome then 0 else 1 }

/-- The files that command names find. -/
def whichTool (c : Call) : Effect :=
  let found := c.args.map fun name =>
    let places := if name.contains Ascii.slash then [name]
      else ((c.environment.lookup (utf8 "PATH")).map (Bytes.split Ascii.colon)).getD [] |>.map fun d =>
        d ++ [Ascii.slash] ++ name
    places.find? fun p =>
      match c.find p with
      | .ok (.tool _) => true
      | .ok (.file _ true) => true
      | _ => false
  { out := Data.ofBytes (unlines (found.filterMap id)), status := if found.all Option.isSome then 0 else 1 }

/-- The absolute paths that paths stand for. -/
def realpathTool (c : Call) : Effect :=
  c.withOptions "realpath" 1 { flags := "emqsLPz" } fun g =>
    if g.words.isEmpty then .misuse "realpath" 1 (utf8 "missing operand")
    else .print (unlines (g.words.map fun w => pathOf (c.path w)))

/-- The programs by name. -/
def tools : List (String × (Call → Effect)) :=
  [("true", fun _ => {}), ("false", fun _ => { status := 1 }), ("echo", echoTool), ("printf", printfTool),
    ("sleep", sleepTool), ("cat", Cat.tool), ("head", Extent.tool false), ("tail", Extent.tool true),
    ("tr", Translate.tool), ("seq", Sequence.tool), ("wc", Count.tool), ("yes", yesTool),
    ("pwd", fun c => .print (pathOf c.directory ++ [Ascii.newline])), ("test", testTool (utf8 "test")),
    ("[", testTool (utf8 "[")), ("expr", Expr.tool), ("factor", factorTool), ("basename", basenameTool),
    ("dirname", dirnameTool), ("sort", Sorting.tool), ("uniq", uniqTool), ("comm", commTool), ("cut", Cut.tool),
    ("paste", Paste.tool), ("nl", nlTool), ("fold", foldTool), ("expand", expandTool), ("tac", tacTool),
    ("rev", revTool), ("tee", teeTool), ("sed", Sed.tool), ("grep", Grep.tool none), ("egrep", Grep.tool (some 'E')),
    ("fgrep", Grep.tool (some 'F')), ("od", Dump.tool), ("base64", Base64.tool), ("ls", Listing.tool),
    ("mkdir", mkdirTool), ("rmdir", rmdirTool), ("rm", rmTool), ("touch", touchTool), ("cp", transferTool false),
    ("mv", transferTool true), ("chmod", chmodTool), ("printenv", printenvTool), ("which", whichTool),
    ("realpath", realpathTool), ("whoami", fun _ => .print (utf8 "root\n")),
    ("id", fun c => .print (utf8 (if c.args.isEmpty then "uid=0(root) gid=0(root) groups=0(root)\n"
      else if c.args.any fun a => a.contains 0x6e then "root\n" else "0\n"))),
    ("uname", fun _ => .print (utf8 "Linux\n")),
    ("tty", fun _ => { out := Data.ofBytes (utf8 "not a tty\n"), status := 1 })]

/-- A program of the system that works on its own; none for those that start others. -/
def runTool (name : Bytes) (c : Call) : Option Effect :=
  (tools.find? fun t => utf8 t.1 == name).map fun t => t.2 c

end Stopwatch.Host
