import Stopwatch.Text.Blank

/-!
Comparing the output of a program with what it should print. White space at the ends does not count.
-/

namespace Stopwatch

/-- Whether an output is what was expected; an expectation without text accepts any output. -/
def outputMatches (actual expected : Bytes) : Bool :=
  let core := expected.trim
  core.isEmpty || actual.trim == core

end Stopwatch
