import Stopwatch.Bench.Program
import Stopwatch.Text.Quoted

/-!
Choosing programs by name. Each name stands for the last program that carries it, names may repeat, and the first name
that no program carries ends the choice.
-/

namespace Stopwatch.Selection

/-- The last program of a name. -/
def byName? (programs : List Program) (name : Bytes) : Option Program :=
  programs.reverse.find? fun p => p.name == name

/-- The programs of the names in order, up to the first unknown name, and that name. -/
def select (programs : List Program) : List Bytes → List Program → List Program × Option Bytes
  | [], chosen => (chosen.reverse, none)
  | name :: rest, chosen =>
    match byName? programs name with
    | some p => select programs rest (p :: chosen)
    | none => (chosen.reverse, some name)

/-- The message for a name that no program carries. -/
def unknownMessage (name : Bytes) : Bytes := utf8 "unknown program " ++ quote name

end Stopwatch.Selection
