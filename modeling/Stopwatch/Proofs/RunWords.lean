import Mathlib.Data.List.Infix
import Stopwatch.Proofs.Numerals
import Stopwatch.Isolate.Arguments

/-!
What a run's words tell the sandbox tool. Options come first and the command last, after the first `--`. Every option
that takes a value begins with a text of its own, and no such text begins with another, so a word can be read in one way
only, whatever stands behind that text. The words therefore give the request back, but for its time limit, which is
rounded on the way.
-/

namespace Stopwatch.Isolate

/-! ### Reading a command line -/

/-- The words before the first `--`. -/
def optionsOf (line : List Bytes) : List Bytes := line.takeWhile (· != utf8 "--")

/-- The words after the first `--`. -/
def commandOf (line : List Bytes) : List Bytes := (line.dropWhile (· != utf8 "--")).tail

/-- What words give for an option: the rest of each word that begins with its text. -/
def valuesOf (option : Bytes) (words : List Bytes) : List Bytes := words.filterMap (·.dropPrefix? option)

theorem bne_of_not_mem {options : List Bytes} (h : utf8 "--" ∉ options) : ∀ w ∈ options, (w != utf8 "--") = true := by
  intro w hw
  rw [bne_iff_ne]
  rintro rfl
  exact h hw

theorem optionsOf_append {options : List Bytes} (command : List Bytes) (h : utf8 "--" ∉ options) :
    optionsOf (options ++ utf8 "--" :: command) = options := by
  rw [optionsOf, List.takeWhile_append_of_pos (bne_of_not_mem h), List.takeWhile_cons_of_neg (by simp), List.append_nil]

theorem commandOf_append {options : List Bytes} (command : List Bytes) (h : utf8 "--" ∉ options) :
    commandOf (options ++ utf8 "--" :: command) = command := by
  rw [commandOf, List.dropWhile_append_of_pos (bne_of_not_mem h), List.dropWhile_cons_of_neg (by simp), List.tail_cons]

/-! ### Options that take a value -/

/-- The options of a run that take a value. -/
inductive Switch where
  | box
  | memory
  | time
  | wallTime
  | out
  | err
  | info
  | path
  | processes
  | dir
  deriving DecidableEq, Repr

namespace Switch

/-- The text before the value. -/
def text : Switch → Bytes
  | .box => utf8 "--box-id="
  | .memory => utf8 "--cg-mem="
  | .time => utf8 "--time="
  | .wallTime => utf8 "--wall-time="
  | .out => utf8 "--stdout="
  | .err => utf8 "--stderr="
  | .info => utf8 "--meta="
  | .path => utf8 "--env=PATH="
  | .processes => utf8 "--processes="
  | .dir => utf8 "--dir=/box="

/-- The value that a run gives to an option, if any. -/
def value? (box : Bytes) (req : RunRequest) (files : Files) : Switch → Option Bytes
  | .box => some box
  | .memory => if 0 < req.memoryLimitKb then some (Integer.ofInt64 req.memoryLimitKb) else none
  | .time => if 0 < req.timeLimitMs then some (Layout.fixed 3 (seconds req.timeLimitMs)) else none
  | .wallTime => if 0 < req.timeLimitMs then some (Layout.fixed 3 (seconds req.timeLimitMs * 2)) else none
  | .out => some files.out
  | .err => some files.err
  | .info => some files.info
  | .path => some boxPath
  | .processes => some (Integer.ofNat boxProcesses)
  | .dir => if req.workDir = [] then none else some req.workDir

/-- No option can be taken for the beginning of another. -/
theorem eq_of_begins {s t : Switch} (h : s.text <+: t.text) : s = t := by
  cases s <;> cases t <;> first | rfl | exact absurd h (by decide)

/-- Whatever the value, a word is read as one option only. -/
theorem dropPrefix?_text_append (s t : Switch) (value : Bytes) :
    (t.text ++ value).dropPrefix? s.text = if s = t then some value else none := by
  split
  · next hst =>
    rw [hst, List.dropPrefix?_eq_some_iff]
    exact ⟨t.text, rfl, beq_self_eq_true _⟩
  · next hst =>
    rw [Option.eq_none_iff_forall_ne_some]
    intro rest hrest
    obtain ⟨front, hword, hfront⟩ := List.dropPrefix?_eq_some_iff.mp hrest
    rw [eq_of_beq hfront] at hword
    rcases List.prefix_or_prefix_of_prefix ⟨rest, hword.symm⟩ (List.prefix_append t.text value) with h | h
    · exact hst (eq_of_begins h)
    · exact hst (eq_of_begins h).symm

/-- No option with a value is the word that ends the options. -/
theorem text_append_ne_separator (s : Switch) (value : Bytes) : s.text ++ value ≠ utf8 "--" := by
  intro h
  have hbegins : s.text <+: utf8 "--" := ⟨value, h⟩
  cases s <;> exact absurd hbegins (by decide)

end Switch

/-! ### The words of a run -/

/-- The word for an option, if a run gives it a value. -/
def optionWord? (box : Bytes) (req : RunRequest) (files : Files) (s : Switch) : Option Bytes :=
  (s.value? box req files).map (s.text ++ ·)

/-- The words of a run before `--run`. -/
def optionWords (box : Bytes) (req : RunRequest) (files : Files) : List Bytes :=
  [Switch.box].filterMap (optionWord? box req files) ++ [utf8 "--cg"] ++
    [.memory, .time, .wallTime, .out, .err, .info, .path, .processes, .dir].filterMap (optionWord? box req files)

theorem runWords_eq (box : Bytes) (req : RunRequest) (files : Files) :
    runWords box req files = (optionWords box req files ++ [utf8 "--run"]) ++ utf8 "--" :: req.words := by
  simp only [runWords, limitWords, optionWords, boxWords, List.isEmpty_iff]
  by_cases hmemory : 0 < req.memoryLimitKb <;> by_cases htime : 0 < req.timeLimitMs <;> by_cases hdir : req.workDir = [] <;>
    simp [optionWord?, Switch.value?, Switch.text, hmemory, htime, hdir]

theorem separator_not_mem (box : Bytes) (req : RunRequest) (files : Files) :
    utf8 "--" ∉ optionWords box req files ++ [utf8 "--run"] := by
  have hswitches : ∀ switches : List Switch, utf8 "--" ∉ switches.filterMap (optionWord? box req files) := by
    intro switches h
    obtain ⟨s, -, hs⟩ := List.mem_filterMap.mp h
    obtain ⟨value, -, hvalue⟩ := Option.map_eq_some_iff.mp hs
    exact s.text_append_ne_separator value hvalue
  have hplain : utf8 "--" ≠ utf8 "--cg" ∧ utf8 "--" ≠ utf8 "--run" := by decide
  simp only [optionWords, List.mem_append, List.mem_singleton, not_or]
  exact ⟨⟨⟨hswitches _, hplain.1⟩, hswitches _⟩, hplain.2⟩

/-- Reading an option back from the words for options. -/
theorem valuesOf_filterMap (box : Bytes) (req : RunRequest) (files : Files) (s : Switch) (switches : List Switch) :
    valuesOf s.text (switches.filterMap (optionWord? box req files)) =
      (switches.filter (s = ·)).filterMap (Switch.value? box req files) := by
  rw [valuesOf, List.filterMap_filterMap, List.filterMap_filter]
  congr 1
  funext t
  rw [optionWord?]
  cases t.value? box req files with
  | none => simp
  | some value => simp [Switch.dropPrefix?_text_append]

theorem optionsOf_runWords (box : Bytes) (req : RunRequest) (files : Files) :
    optionsOf (runWords box req files) = optionWords box req files ++ [utf8 "--run"] := by
  rw [runWords_eq, optionsOf_append _ (separator_not_mem box req files)]

/-- Every option is given once, with its value, or not at all. -/
theorem valuesOf_runWords (box : Bytes) (req : RunRequest) (files : Files) (s : Switch) :
    valuesOf s.text (optionsOf (runWords box req files)) = (s.value? box req files).toList := by
  have happend : ∀ front back, valuesOf s.text (front ++ back) = valuesOf s.text front ++ valuesOf s.text back :=
    fun front back => List.filterMap_append
  have hplain : valuesOf s.text [utf8 "--cg"] = [] ∧ valuesOf s.text [utf8 "--run"] = [] := by
    cases s <;> decide
  have honce : [Switch.box].filter (s = ·) ++
      [Switch.memory, .time, .wallTime, .out, .err, .info, .path, .processes, .dir].filter (s = ·) = [s] := by
    cases s <;> rfl
  rw [optionsOf_runWords, optionWords, happend, happend, happend, hplain.1, hplain.2, List.append_nil, List.append_nil,
    valuesOf_filterMap, valuesOf_filterMap, ← List.filterMap_append, honce]
  cases hvalue : s.value? box req files with
  | none => simp [hvalue]
  | some value => simp [hvalue]

/-! ### The request, from its words -/

section SameWords
variable {box box' : Bytes} {req req' : RunRequest} {files files' : Files}

theorem words_eq_of_runWords_eq (h : runWords box' req' files' = runWords box req files) : req'.words = req.words := by
  have hcommand := congrArg commandOf h
  rwa [runWords_eq, runWords_eq, commandOf_append _ (separator_not_mem box' req' files'),
    commandOf_append _ (separator_not_mem box req files)] at hcommand

theorem value?_eq_of_runWords_eq (h : runWords box' req' files' = runWords box req files) (s : Switch) :
    s.value? box' req' files' = s.value? box req files := by
  have hvalues := valuesOf_runWords box' req' files' s
  rw [h, valuesOf_runWords] at hvalues
  simpa using congrArg List.head? hvalues.symm

theorem workDir_eq_of_value?_eq (h : Switch.dir.value? box' req' files' = Switch.dir.value? box req files) :
    req'.workDir = req.workDir := by
  simp only [Switch.value?] at h
  split_ifs at h with hdir' hdir hdir
  · rw [hdir', hdir]
  · exact Option.some.inj h

/-- Limits that bind are written in figures, which can be read back; the others are not written. -/
theorem memoryLimit_eq_of_value?_eq (h : Switch.memory.value? box' req' files' = Switch.memory.value? box req files) :
    req'.memoryLimitKb = req.memoryLimitKb ∨ (req'.memoryLimitKb ≤ 0 ∧ req.memoryLimitKb ≤ 0) := by
  simp only [Switch.value?] at h
  split_ifs at h with hlimit' hlimit hlimit
  · have hread := Integer.read_ofInt64 req'.memoryLimitKb
    rw [Option.some.inj h, Integer.read_ofInt64] at hread
    exact Or.inl (Except.ok.inj hread).symm
  · exact Or.inr ⟨Int64.not_lt.mp hlimit', Int64.not_lt.mp hlimit⟩

end SameWords

/-- The words of a run hold its command and nothing else after the first `--`, which stands behind `--run`, and give every
option once or not at all, as the request says; no text of the request can change that. So the words determine the box,
the files, the command, the working directory and the memory limit, where all limits that do not bind are one. -/
theorem run_words_tell (box : Bytes) (req : RunRequest) (files : Files) :
    runWords box req files = optionsOf (runWords box req files) ++ utf8 "--" :: req.words ∧
    (optionsOf (runWords box req files)).getLast? = some (utf8 "--run") ∧
    utf8 "--" ∉ optionsOf (runWords box req files) ∧
    (∀ s : Switch, valuesOf s.text (optionsOf (runWords box req files)) = (s.value? box req files).toList) ∧
    ∀ (box' : Bytes) (req' : RunRequest) (files' : Files), runWords box' req' files' = runWords box req files →
      box' = box ∧ files' = files ∧ req'.words = req.words ∧ req'.workDir = req.workDir ∧
      (req'.memoryLimitKb = req.memoryLimitKb ∨ (req'.memoryLimitKb ≤ 0 ∧ req.memoryLimitKb ≤ 0)) := by
  have hoptions := optionsOf_runWords box req files
  refine ⟨?_, ?_, ?_, valuesOf_runWords box req files, fun box' req' files' heq => ?_⟩
  · rw [hoptions, runWords_eq]
  · rw [hoptions, List.getLast?_concat]
  · rw [hoptions]
    exact separator_not_mem box req files
  · have hvalue := value?_eq_of_runWords_eq heq
    have hout : files'.out = files.out := Option.some.inj (hvalue .out)
    have herr : files'.err = files.err := Option.some.inj (hvalue .err)
    have hinfo : files'.info = files.info := Option.some.inj (hvalue .info)
    refine ⟨Option.some.inj (hvalue .box), ?_, words_eq_of_runWords_eq heq, workDir_eq_of_value?_eq (hvalue .dir),
      memoryLimit_eq_of_value?_eq (hvalue .memory)⟩
    rw [show files' = ⟨files'.out, files'.err, files'.info⟩ from rfl, hout, herr, hinfo]

/-- A request whose texts all look like options or like the end of them. -/
theorem run_words_tell_disguised :
    let req : RunRequest :=
      { command := some [utf8 "--", utf8 "--run", utf8 "--box-id=0"], workDir := utf8 "--cg-mem=1", memoryLimitKb := -5 }
    let files : Files := ⟨utf8 "--", utf8 "--dir=/box=x", utf8 "--run"⟩
    commandOf (runWords (utf8 "--") req files) = [utf8 "--", utf8 "--run", utf8 "--box-id=0"] ∧
    valuesOf (utf8 "--cg-mem=") (optionsOf (runWords (utf8 "--") req files)) = [] ∧
    valuesOf (utf8 "--dir=/box=") (optionsOf (runWords (utf8 "--") req files)) = [utf8 "--cg-mem=1"] ∧
    runWords (utf8 "--") req files = runWords (utf8 "--") { req with memoryLimitKb := 0 } files ∧
    runWords (utf8 "-") req files ≠ runWords (utf8 "--") req files := by
  intro req files
  obtain ⟨hline, -, hseparator, hvalues, hsame⟩ := run_words_tell (utf8 "--") req files
  refine ⟨?_, (hvalues .memory).trans (by decide), (hvalues .dir).trans (by decide), by decide, fun heq => ?_⟩
  · rw [hline, commandOf_append _ hseparator]
    rfl
  · exact absurd (hsame (utf8 "-") req files heq).1 (by decide)

end Stopwatch.Isolate
