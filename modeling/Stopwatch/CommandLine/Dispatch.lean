import Stopwatch.CommandLine.Options

/-!
Which command a command line names. The first plain word counts that is not the value of a flag; a word that names no
command brings the names that look like it.
-/

namespace Stopwatch.CommandLine

/-- Whether a word is a flag that takes the next word as its value. -/
def takesNext (word : Bytes) : Bool :=
  !word.contains Ascii.equals
    && (Bytes.startsWith (utf8 "--") word || (Bytes.startsWith (utf8 "-") word && word.length = 2))

def isFlag (word : Bytes) : Bool := word.head? = some Ascii.minus

/-- The words that are neither flags nor values of flags. A flag whose value would be the last word ends the search. -/
def plainWords : List Bytes → List Bytes
  | [] => []
  | word :: rest =>
    if word == utf8 "--" then []
    else if takesNext word then
      match rest with
      | _ :: next :: more => plainWords (next :: more)
      | _ => []
    else if word.isEmpty || isFlag word then plainWords rest
    else word :: plainWords rest

/-- The words without the first plain one that equals `name`. -/
def withoutFirst (name : Bytes) : List Bytes → List Bytes
  | [] => []
  | word :: rest =>
    if word == utf8 "--" then word :: rest
    else if takesNext word then
      match rest with
      | [] => [word]
      | value :: more => word :: value :: withoutFirst name more
    else if !isFlag word && word == name then rest
    else word :: withoutFirst name rest

/-- What a command line asks for. -/
inductive Target where
  | command (c : Command) (args : List Bytes)
  /-- A text about the commands. -/
  | guidance
  /-- No command, only flags. -/
  | bare
  | unknown (name : Bytes)
  deriving DecidableEq, Repr

/-- The words that ask for texts about the commands. -/
def guidanceNames : List Bytes := [utf8 "help", utf8 "completion", utf8 "__complete", utf8 "__completeNoDesc"]

def target (args : List Bytes) : Target :=
  match plainWords args with
  | [] => .bare
  | name :: _ =>
    match Command.ofName? name with
    | some c => .command c (withoutFirst name args)
    | none => if guidanceNames.contains name then .guidance else .unknown name

/-- One row of the table of edit distances: from the row before it and the octet of the row. -/
def distanceRow (b : UInt8) (t : Bytes) (row : List Nat) : List Nat :=
  match row with
  | [] => []
  | corner :: above =>
    let (_, _, cells) := (t.zip above).foldl (fun (corner, left, cells) (c, up) =>
      let cell := if b == c then corner else min (min up left) corner + 1
      (up, cell, cell :: cells)) (corner, corner + 1, [corner + 1])
    cells.reverse

/-- How many octets are to be put in, taken out or replaced to get from one text to the other. -/
def editDistance (s t : Bytes) : Nat :=
  (s.foldl (fun row b => distanceRow b t row) (List.range (t.length + 1))).getLast?.getD 0

/-- The commands that a mistyped name may mean. -/
def suggestions (name : Bytes) : List Bytes :=
  let name := name.map Ascii.lower
  (Command.all.map Command.name ++ [utf8 "completion"]).filter fun known =>
    editDistance name known ≤ 2 || Bytes.startsWith name known

/-- The message about a word that names no command. -/
def unknownCommandMessage (name : Bytes) : Bytes :=
  let similar := suggestions name
  utf8 "unknown command " ++ quote name ++ utf8 " for \"bench\"" ++
    (if similar.isEmpty then []
      else utf8 "\n\nDid you mean this?\n" ++ similar.flatMap fun known => utf8 "\t" ++ known ++ utf8 "\n")

end Stopwatch.CommandLine
