import Stopwatch.Text.Ascii

/-!
The commands of the shell. A word is made of parts, some of which are only known when the command runs.
-/

namespace Stopwatch.Host.Shell

/-- What an operator in braces does with a variable. -/
inductive Operator where
  /-- A word stands in for a missing value. -/
  | fallback
  /-- The same, and the variable keeps it. -/
  | assign
  /-- A missing value is an error. -/
  | insist
  /-- A word stands in for a value that is there. -/
  | replace
  | dropStart
  | dropEnd
  deriving DecidableEq, Repr

/-- What a redirection does. -/
inductive RedirectKind where
  | input
  | output
  /-- Output even to a file that must not be lost. -/
  | force
  | append
  | both
  /-- The word names a descriptor. -/
  | duplicate
  /-- The word itself is the input. -/
  | here
  deriving DecidableEq, Repr

mutual

/-- A part of a word. The last truth value says whether it stands in quotes. -/
inductive Part where
  | literal (s : Bytes) (quoted : Bool)
  | named (name : Bytes) (quoted : Bool)
  /-- A variable under an operator with a word. A `strong` operator takes an empty value for a missing one, or drops the
  longest match. -/
  | modified (name : Bytes) (operator : Operator) (strong : Bool) (word : List Part) (quoted : Bool)
  /-- The length of a variable. -/
  | size (name : Bytes) (quoted : Bool)
  | command (script : Command) (quoted : Bool)
  | arithmetic (expression : List Part) (quoted : Bool)
  /-- Braces around something else; refused when the word is expanded. -/
  | malformed

/-- A redirection of a descriptor. -/
inductive Redirect where
  | mk (descriptor : Nat) (kind : RedirectKind) (target : List Part)

/-- A command. Numbers are those of lines. -/
inductive Command where
  | empty
  | simple (assignments : List (Bytes × List Part)) (words : List (List Part)) (redirects : List Redirect) (line : Nat)
  | pipeline (negated : Bool) (commands : List Command)
  | and (a b : Command)
  | or (a b : Command)
  | seq (a b : Command)
  | background (a : Command)
  | subshell (a : Command)
  | group (a : Command)
  | redirected (a : Command) (redirects : List Redirect) (line : Nat)
  | ifThen (condition body alternative : Command)
  | loop (sense : Bool) (condition body : Command)
  | forEach (name : Bytes) (words : Option (List (List Part))) (body : Command) (line : Nat)
  | select (word : List Part) (arms : List (List (List Part) × Command)) (line : Nat)
  | define (name : Bytes) (body : Command)

end

/-- A word of a command. -/
abbrev Word := List Part

instance : Inhabited Part := ⟨.literal [] false⟩

instance : Inhabited Command := ⟨.empty⟩

namespace Redirect

def descriptor : Redirect → Nat
  | .mk n _ _ => n

def kind : Redirect → RedirectKind
  | .mk _ k _ => k

def target : Redirect → Word
  | .mk _ _ w => w

end Redirect

/-- Whether a part stands in quotes. -/
def Part.isQuoted : Part → Bool
  | .literal _ q => q
  | .named _ q => q
  | .modified _ _ _ _ q => q
  | .size _ q => q
  | .command _ q => q
  | .arithmetic _ q => q
  | .malformed => false

/-- The text of a word without anything to expand; none if there is something. -/
def plainText? (word : Word) : Option Bytes :=
  word.foldl (fun text part =>
    match text, part with
    | some s, .literal t _ => some (s ++ t)
    | _, _ => none) (some [])

/-- One command after another. -/
def Command.then : Option Command → Command → Command
  | none, b => b
  | some a, b => .seq a b

end Stopwatch.Host.Shell
