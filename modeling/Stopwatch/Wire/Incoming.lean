import Stopwatch.Bench.Result
import Stopwatch.Number.Reader
import Stopwatch.Wire.Value

/-!
Values as requests and reports. Keys count in either case, unknown ones are passed over, null leaves what was there, and
a repeated field is read over what the earlier one left.
-/

namespace Stopwatch.Wire

/-- The character that a letter of a key counts as: small, and two look-alikes as the letters they look like. -/
def foldChar (c : Char) : Char :=
  if 'A' ≤ c && c ≤ 'Z' then Char.ofNat (c.toNat + 32)
  else if c == '\u212a' then 'k'
  else if c == '\u017f' then 's'
  else c

/-- A key without regard to case. -/
def foldKey (key : Bytes) : List Glyph := key.glyphs.map fun
  | .char c => .char (foldChar c)
  | g => g

def keyIs (name : String) (key : Bytes) : Bool := foldKey key == foldKey (utf8 name)

/-- Reads a text over an earlier one. -/
def textOver (old : Bytes) : Value → Option Bytes
  | .null => some old
  | .text s => some s
  | _ => none

def statusOver (old : Status) : Value → Option Status
  | .null => some old
  | .text s => some (.ofText s)
  | _ => none

/-- Reads an integer over an earlier one; only literals without point and exponent will do. -/
def intOver (old : Int64) : Value → Option Int64
  | .null => some old
  | .number literal => (Integer.read literal).toOption
  | _ => none

def floatOver (old : Float) : Value → Option Float
  | .null => some old
  | .number literal => (FloatReader.read literal).toOption
  | _ => none

/-- A list with what earlier, longer lists left behind its end. -/
structure Slots (α : Type) where
  items : List α
  spare : List α := []
  deriving Repr

/-- Reads items over what stands in the places, fresh ones after the last. -/
def itemsOver {α : Type} (fresh : α) (item : α → Value → Option α) : List Value → List α → Option (List α)
  | [], _ => some []
  | v :: rest, old => do
    let x ← item (old.head?.getD fresh) v
    let xs ← itemsOver fresh item rest old.tail
    some (x :: xs)

/-- Reads a list over an earlier one. -/
def listOver {α : Type} (fresh : α) (item : α → Value → Option α) (old : Option (Slots α)) :
    Value → Option (Option (Slots α))
  | .null => some none
  | .list [] => some (some { items := [] })
  | .list values =>
    let places := match old with
      | none => []
      | some slots => slots.items ++ slots.spare
    (itemsOver fresh item values places).map fun items => some { items, spare := places.drop items.length }
  | _ => none

/-- Reads the entries of a table one after the other. -/
def entriesOver {α : Type} (entry : α → Bytes → Value → Option α) : List (Bytes × Value) → α → Option α
  | [], x => some x
  | (key, v) :: rest, x => (entry x key v).bind (entriesOver entry rest)

/-- Reads a table over an earlier value. -/
def tableOver {α : Type} (entry : α → Bytes → Value → Option α) (old : α) : Value → Option α
  | .null => some old
  | .table entries => entriesOver entry entries old
  | _ => none

/-- A program that is being read. -/
structure ProgramDraft where
  name : Bytes := []
  executor : Bytes := []
  command : Option (Slots Bytes) := none
  expectOutput : Bytes := []

def ProgramDraft.entry (p : ProgramDraft) (key : Bytes) (v : Value) : Option ProgramDraft :=
  if keyIs "name" key then (textOver p.name v).map ({ p with name := · })
  else if keyIs "executor" key then (textOver p.executor v).map ({ p with executor := · })
  else if keyIs "command" key then (listOver [] textOver p.command v).map ({ p with command := · })
  else if keyIs "expectOutput" key then (textOver p.expectOutput v).map ({ p with expectOutput := · })
  else some p

section
variable (p : ProgramDraft) (v : Value)

@[simp] theorem ProgramDraft.entry_name :
    p.entry (utf8 "name") v = (textOver p.name v).map ({ p with name := · }) := rfl

@[simp] theorem ProgramDraft.entry_executor :
    p.entry (utf8 "executor") v = (textOver p.executor v).map ({ p with executor := · }) := rfl

@[simp] theorem ProgramDraft.entry_command :
    p.entry (utf8 "command") v = (listOver [] textOver p.command v).map ({ p with command := · }) := rfl

@[simp] theorem ProgramDraft.entry_expectOutput :
    p.entry (utf8 "expectOutput") v = (textOver p.expectOutput v).map ({ p with expectOutput := · }) := rfl

end

def ProgramDraft.done (p : ProgramDraft) : Program :=
  { name := p.name, executor := p.executor, command := p.command.map Slots.items, expectOutput := p.expectOutput }

/-- A request that is being read. -/
structure RequestDraft where
  id : Bytes := []
  programs : Option (Slots ProgramDraft) := none
  minDurationMs : Int64 := 0
  timeLimitMs : Int64 := 0
  memoryLimitKb : Int64 := 0

def RequestDraft.entry (r : RequestDraft) (key : Bytes) (v : Value) : Option RequestDraft :=
  if keyIs "id" key then (textOver r.id v).map ({ r with id := · })
  else if keyIs "programs" key then
    (listOver {} (tableOver ProgramDraft.entry) r.programs v).map ({ r with programs := · })
  else if keyIs "minDurationMs" key then (intOver r.minDurationMs v).map ({ r with minDurationMs := · })
  else if keyIs "timeLimitMs" key then (intOver r.timeLimitMs v).map ({ r with timeLimitMs := · })
  else if keyIs "memoryLimitKb" key then (intOver r.memoryLimitKb v).map ({ r with memoryLimitKb := · })
  else some r

section
variable (r : RequestDraft) (v : Value)

@[simp] theorem RequestDraft.entry_id :
    r.entry (utf8 "id") v = (textOver r.id v).map ({ r with id := · }) := rfl

@[simp] theorem RequestDraft.entry_programs :
    r.entry (utf8 "programs") v = (listOver {} (tableOver ProgramDraft.entry) r.programs v).map ({ r with programs := · }) :=
  rfl

@[simp] theorem RequestDraft.entry_minDurationMs :
    r.entry (utf8 "minDurationMs") v = (intOver r.minDurationMs v).map ({ r with minDurationMs := · }) := rfl

@[simp] theorem RequestDraft.entry_timeLimitMs :
    r.entry (utf8 "timeLimitMs") v = (intOver r.timeLimitMs v).map ({ r with timeLimitMs := · }) := rfl

@[simp] theorem RequestDraft.entry_memoryLimitKb :
    r.entry (utf8 "memoryLimitKb") v = (intOver r.memoryLimitKb v).map ({ r with memoryLimitKb := · }) := rfl

end

def RequestDraft.done (r : RequestDraft) : Request :=
  { id := r.id
    programs := r.programs.map fun slots => slots.items.map ProgramDraft.done
    minDurationMs := r.minDurationMs
    timeLimitMs := r.timeLimitMs
    memoryLimitKb := r.memoryLimitKb }

def resultEntry (r : Result) (key : Bytes) (v : Value) : Option Result :=
  if keyIs "requestId" key then (textOver r.requestId v).map ({ r with requestId := · })
  else if keyIs "program" key then (textOver r.program v).map ({ r with program := · })
  else if keyIs "status" key then (statusOver r.status v).map ({ r with status := · })
  else if keyIs "samples" key then (intOver r.samples v).map ({ r with samples := · })
  else if keyIs "meanMs" key then (floatOver r.meanMs v).map ({ r with meanMs := · })
  else if keyIs "minMs" key then (floatOver r.minMs v).map ({ r with minMs := · })
  else if keyIs "maxMs" key then (floatOver r.maxMs v).map ({ r with maxMs := · })
  else if keyIs "peakMemoryKb" key then (intOver r.peakMemoryKb v).map ({ r with peakMemoryKb := · })
  else if keyIs "output" key then (textOver r.output v).map ({ r with output := · })
  else if keyIs "error" key then (textOver r.error v).map ({ r with error := · })
  else some r

section
variable (r : Result) (v : Value)

@[simp] theorem resultEntry_requestId :
    resultEntry r (utf8 "requestId") v = (textOver r.requestId v).map ({ r with requestId := · }) := rfl

@[simp] theorem resultEntry_program :
    resultEntry r (utf8 "program") v = (textOver r.program v).map ({ r with program := · }) := rfl

@[simp] theorem resultEntry_status :
    resultEntry r (utf8 "status") v = (statusOver r.status v).map ({ r with status := · }) := rfl

@[simp] theorem resultEntry_samples :
    resultEntry r (utf8 "samples") v = (intOver r.samples v).map ({ r with samples := · }) := rfl

@[simp] theorem resultEntry_meanMs :
    resultEntry r (utf8 "meanMs") v = (floatOver r.meanMs v).map ({ r with meanMs := · }) := rfl

@[simp] theorem resultEntry_minMs :
    resultEntry r (utf8 "minMs") v = (floatOver r.minMs v).map ({ r with minMs := · }) := rfl

@[simp] theorem resultEntry_maxMs :
    resultEntry r (utf8 "maxMs") v = (floatOver r.maxMs v).map ({ r with maxMs := · }) := rfl

@[simp] theorem resultEntry_peakMemoryKb :
    resultEntry r (utf8 "peakMemoryKb") v = (intOver r.peakMemoryKb v).map ({ r with peakMemoryKb := · }) := rfl

@[simp] theorem resultEntry_output :
    resultEntry r (utf8 "output") v = (textOver r.output v).map ({ r with output := · }) := rfl

@[simp] theorem resultEntry_error :
    resultEntry r (utf8 "error") v = (textOver r.error v).map ({ r with error := · }) := rfl

end

/-- A report that is being read. -/
structure ReportDraft where
  requestId : Bytes := []
  results : Option (Slots Result) := none
  scoreMs : Float := 0
  failed : Option (Slots Bytes) := none

def ReportDraft.entry (r : ReportDraft) (key : Bytes) (v : Value) : Option ReportDraft :=
  if keyIs "requestId" key then (textOver r.requestId v).map ({ r with requestId := · })
  else if keyIs "results" key then
    (listOver {} (tableOver resultEntry) r.results v).map ({ r with results := · })
  else if keyIs "scoreMs" key then (floatOver r.scoreMs v).map ({ r with scoreMs := · })
  else if keyIs "failed" key then (listOver [] textOver r.failed v).map ({ r with failed := · })
  else some r

section
variable (r : ReportDraft) (v : Value)

@[simp] theorem ReportDraft.entry_requestId :
    r.entry (utf8 "requestId") v = (textOver r.requestId v).map ({ r with requestId := · }) := rfl

@[simp] theorem ReportDraft.entry_results :
    r.entry (utf8 "results") v = (listOver {} (tableOver resultEntry) r.results v).map ({ r with results := · }) := rfl

@[simp] theorem ReportDraft.entry_scoreMs :
    r.entry (utf8 "scoreMs") v = (floatOver r.scoreMs v).map ({ r with scoreMs := · }) := rfl

@[simp] theorem ReportDraft.entry_failed :
    r.entry (utf8 "failed") v = (listOver [] textOver r.failed v).map ({ r with failed := · }) := rfl

end

def ReportDraft.done (r : ReportDraft) : Report :=
  { requestId := r.requestId
    results := r.results.map Slots.items
    scoreMs := r.scoreMs
    failed := r.failed.map Slots.items }

end Stopwatch.Wire
