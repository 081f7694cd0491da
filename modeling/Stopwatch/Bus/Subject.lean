import Stopwatch.Text.Ascii

/-!
Subjects: words with dots between them. A subscription may use a star for any one word and a final greater sign for one
or more words.
-/

namespace Stopwatch.Bus

def isSubjectBlank (b : UInt8) : Bool :=
  b == Ascii.space || b == Ascii.tab || b == Ascii.carriageReturn || b == Ascii.newline

/-- Whether a subscription to a subject is accepted. -/
def isSubject (s : Bytes) : Bool := !s.any isSubjectBlank && (Bytes.split Ascii.dot s).all fun word => !word.isEmpty

/-- Whether a queue group is accepted. -/
def isQueue (s : Bytes) : Bool := !s.any isSubjectBlank

/-- Whether a subscription covers the words of a subject. -/
def wordsCover : List Bytes → List Bytes → Bool
  | [], [] => true
  | [], _ :: _ => false
  | _ :: _, [] => false
  | p :: ps, w :: ws =>
    if p == [Ascii.greater] && ps.isEmpty then true
    else (p == [Ascii.star] || p == w) && wordsCover ps ws

def subjectCovers (subscription subject : Bytes) : Bool :=
  wordsCover (Bytes.split Ascii.dot subscription) (Bytes.split Ascii.dot subject)

end Stopwatch.Bus
