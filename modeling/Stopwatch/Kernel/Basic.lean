import Stopwatch.Kernel.Fibonacci

/-!
Kernels: computations that run inside the harness. A kernel takes argument words and gives the line that a program of
the same name would print.
-/

namespace Stopwatch.Kernel

/-- Why a kernel gave no output. -/
inductive Error where
  | usage
  | badIndex (text : Bytes) (reason : NumberError)
  | fibonacci (reason : Fibonacci.Error)
  deriving DecidableEq, Repr

def Error.message : Error → Bytes
  | .usage => utf8 "usage: fib <n>"
  | .badIndex text reason => utf8 "invalid n " ++ quote text ++ utf8 ": " ++ reason.message
  | .fibonacci reason => reason.message

/-- The line that the Fibonacci kernel prints. -/
def fib : List Bytes → Except Error Bytes
  | [text] =>
    match Integer.read text with
    | .error reason => .error (.badIndex text reason)
    | .ok n =>
      match Fibonacci.value n with
      | .error reason => .error (.fibonacci reason)
      | .ok v => .ok (Integer.ofInt64 v ++ [Ascii.newline])
  | _ => .error .usage

/-- The kernel of a name. -/
def find? (name : Bytes) : Option (List Bytes → Except Error Bytes) :=
  if name == utf8 "fib" then some fib else none

/-- The index at which the Fibonacci program prints its value. -/
def programIndex : Int64 := 38

/-- What the Fibonacci program prints. -/
def programOutput : Except Fibonacci.Error Bytes :=
  (Fibonacci.value programIndex).map fun v => Integer.ofInt64 v ++ [Ascii.newline]

end Stopwatch.Kernel
