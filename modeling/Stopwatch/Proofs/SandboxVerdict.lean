import Stopwatch.Proofs.Boxes
import Stopwatch.Proofs.Measurement
import Stopwatch.Proofs.MetaSheets

/-!
What a call of the sandbox returns. It needs a command, a directory, a box, a caller who waits, and a meta file that can
be read and does not tell of trouble of the sandbox itself; the first of these that is missing decides the fault. With
all of them the meta file decides the status.
-/

namespace Stopwatch.Isolate

/-! ### What a meta file says -/

theorem lastGives_status_iff {text : Bytes} {info : Meta} (h : Meta.parse text = .ok info) {word : Bytes} (hword : word ≠ []) :
    LastGives (splitLines text) (utf8 "status") word ↔ info.status = word := by
  obtain ⟨hsome, hnone⟩ := foldlM_line_entry h .status
  rw [show utf8 "status" = Key.status.word from rfl, ← Key.lastIn_eq_some_iff]
  cases hlast : Key.status.lastIn (splitLines text) with
  | none =>
    have hempty : info.status = [] := Entry.text.inj (hnone hlast)
    simp [hempty, hword.symm]
  | some value =>
    have hvalue : value = info.status := Entry.text.inj (Except.ok.inj (hsome value hlast))
    rw [hvalue, Option.some.injEq]

/-! ### The status of a run -/

/-- Memory that is too much: a process was killed for it, or the peak lies above a limit. -/
def OverMemory (info : Meta) (limit : Int64) : Prop := 0 < info.oomKilled ∨ (0 < limit ∧ limit < info.cgMem)

/-- The statuses of a run and what they stand for: memory comes before time, and time before the exit code. -/
structure Verdict (info : Meta) (limit : Int64) (status : Status) : Prop where
  success : status = .success ↔
    info.oomKilled ≤ 0 ∧ (limit ≤ 0 ∨ info.cgMem ≤ limit) ∧
      info.status ∉ [utf8 "TO", utf8 "RE", utf8 "SG"] ∧ info.exitCode = 0
  memory : status = .memoryLimitExceeded ↔ OverMemory info limit
  time : status = .timeLimitExceeded ↔ ¬ OverMemory info limit ∧ info.status = utf8 "TO"
  program : status = .runtimeError ↔
    ¬ OverMemory info limit ∧ info.status ≠ utf8 "TO" ∧
      (info.status ∈ [utf8 "RE", utf8 "SG"] ∨ info.exitCode ≠ 0)

theorem not_overMemory_iff {info : Meta} {limit : Int64} :
    ¬ OverMemory info limit ↔ info.oomKilled ≤ 0 ∧ (limit ≤ 0 ∨ info.cgMem ≤ limit) := by
  rw [OverMemory, not_or, not_and_or, Int64.not_lt, Int64.not_lt, Int64.not_lt]

theorem runStatus_of_overMemory {info : Meta} {limit : Int64} (h : OverMemory info limit) :
    info.runStatus limit = .memoryLimitExceeded := by
  have hcheck : (decide (0 < info.oomKilled) || (decide (0 < limit) && decide (limit < info.cgMem))) = true := by
    simpa [OverMemory] using h
  rw [Meta.runStatus, if_pos hcheck]

theorem runStatus_of_not_overMemory {info : Meta} {limit : Int64} (h : ¬ OverMemory info limit) :
    info.runStatus limit =
      if info.status = utf8 "TO" then .timeLimitExceeded
      else if info.status ∈ [utf8 "RE", utf8 "SG"] ∨ info.exitCode ≠ 0 then .runtimeError else .success := by
  have hcheck : ¬ (decide (0 < info.oomKilled) || (decide (0 < limit) && decide (limit < info.cgMem))) = true := by
    simpa [OverMemory] using h
  rw [Meta.runStatus, if_neg hcheck]
  by_cases hword : info.status = utf8 "RE" ∨ info.status = utf8 "SG" <;> simp [hword]

theorem verdict_runStatus (info : Meta) (limit : Int64) : Verdict info limit (info.runStatus limit) := by
  have hwithin : ∀ P : Prop, (info.oomKilled ≤ 0 ∧ (limit ≤ 0 ∨ info.cgMem ≤ limit) ∧ P) ↔ ¬ OverMemory info limit ∧ P := by
    intro P
    rw [← and_assoc, ← not_overMemory_iff]
  by_cases hover : OverMemory info limit
  · rw [runStatus_of_overMemory hover]
    exact ⟨by simp [hwithin, hover], by simp [hover], by simp [hover], by simp [hover]⟩
  · rw [runStatus_of_not_overMemory hover]
    by_cases htime : info.status = utf8 "TO"
    · rw [if_pos htime]
      exact ⟨by simp [htime], by simp [hover], by simp [hover, htime], by simp [htime]⟩
    · rw [if_neg htime]
      by_cases hprogram : info.status ∈ [utf8 "RE", utf8 "SG"] ∨ info.exitCode ≠ 0
      · rw [if_pos hprogram]
        have hnot : ¬ (info.status ∉ [utf8 "TO", utf8 "RE", utf8 "SG"] ∧ info.exitCode = 0) := by
          rintro ⟨hword, hcode⟩
          rcases hprogram with hmem | hne
          · exact hword (List.mem_cons_of_mem _ hmem)
          · exact hne hcode
        exact ⟨by simp only [hnot, and_false, reduceCtorEq], by simp [hover], by simp [htime],
          by simp only [hover, htime, hprogram, not_false_eq_true, ne_eq, and_self]⟩
      · rw [if_neg hprogram]
        obtain ⟨hword, hcode⟩ := not_or.mp hprogram
        have hclean : info.status ∉ [utf8 "TO", utf8 "RE", utf8 "SG"] := List.not_mem_cons_of_ne_of_not_mem htime hword
        exact ⟨by simp only [hwithin, hover, hclean, not_not.mp hcode, not_false_eq_true, and_self], by simp [hover],
          by simp [htime], by simp only [hprogram, and_false, reduceCtorEq]⟩

/-- There is no other status. -/
theorem Verdict.status_mem {info : Meta} {limit : Int64} {status : Status} (h : Verdict info limit status) :
    status ∈ [.success, .memoryLimitExceeded, .timeLimitExceeded, .runtimeError] := by
  by_cases hover : OverMemory info limit
  · simp [h.memory.mpr hover]
  by_cases htime : info.status = utf8 "TO"
  · simp [h.time.mpr ⟨hover, htime⟩]
  by_cases hprogram : info.status ∈ [utf8 "RE", utf8 "SG"] ∨ info.exitCode ≠ 0
  · simp [h.program.mpr ⟨hover, htime, hprogram⟩]
  · obtain ⟨hword, hcode⟩ := not_or.mp hprogram
    obtain ⟨hkilled, hpeak⟩ := not_overMemory_iff.mp hover
    have hclean : info.status ∉ [utf8 "TO", utf8 "RE", utf8 "SG"] := List.not_mem_cons_of_ne_of_not_mem htime hword
    simp [h.success.mpr ⟨hkilled, hpeak, hclean, not_not.mp hcode⟩]

/-! ### What a call needs -/

/-- What a call needs for a sample, in the order in which it is looked at. -/
inductive Need where
  | command
  | directory
  | box
  | patience
  | file
  | contents
  | sandbox
  deriving DecidableEq

namespace Need

/-- The place of a need in the order. -/
def place : Need → Nat
  | .command => 0
  | .directory => 1
  | .box => 2
  | .patience => 3
  | .file => 4
  | .contents => 5
  | .sandbox => 6

/-- Whether a call gets what it needs. -/
def Met (b : Behaviour) (req : RunRequest) : Need → Prop
  | .command => req.words ≠ []
  | .directory => b.noTempDir = none
  | .box => b.make = .exited 0
  | .patience => b.cancelsRun = false
  | .file => b.info ≠ none
  | .contents => b.infoTrouble = none ∧ ∀ text, b.info = some text → ∀ line ∈ splitLines text, Usable line
  | .sandbox => ∀ text, b.info = some text → ¬ LastGives (splitLines text) (utf8 "status") (utf8 "XX")

/-- Whether a fault is one that tells of an unmet need. -/
def Told (b : Behaviour) (fault : Fault) : Need → Prop
  | .command => ∃ text cause, fault = .failed .badCommand text cause
  | .directory | .box => ∃ text cause, fault = .failed .start text cause
  | .patience => fault = b.reason
  | .file | .contents | .sandbox => ∃ text cause, fault = .failed .wait text cause

/-- The first need that is not met. -/
def FirstUnmet (b : Behaviour) (req : RunRequest) (n : Need) : Prop :=
  (∀ n' : Need, n'.place < n.place → n'.Met b req) ∧ ¬ n.Met b req

theorem exists_firstUnmet {b : Behaviour} {req : RunRequest} (h : ¬ ∀ n : Need, n.Met b req) :
    ∃ n : Need, n.FirstUnmet b req := by
  by_contra hnone
  refine h fun n => ?_
  induction hplace : n.place using Nat.strong_induction_on generalizing n with
  | _ k ih =>
    by_contra hn
    exact hnone ⟨n, fun n' hlt => ih _ (hplace ▸ hlt) n' rfl, hn⟩

end Need

theorem readInfo_eq_ok_iff {text : Bytes} {trouble : Option Bytes} {info : Meta} :
    readInfo text trouble = .ok info ↔ trouble = none ∧ Meta.parse text = .ok info := by
  rw [readInfo]
  cases Meta.parse text with
  | error e => simp
  | ok m => cases trouble <;> simp

section
variable {b : Behaviour} {req : RunRequest} (dir : Bytes) (counter : Counter)

/-- A call that gets as far as its run is decided by the caller and by the files. -/
theorem outcome_of_box (hcommand : Need.command.Met b req) (hdirectory : Need.directory.Met b req)
    (hbox : Need.box.Met b req) :
    (execute b dir counter req).outcome = if b.cancelsRun then .error b.reason else readRun b req := by
  have hwords : req.words.isEmpty = false := List.isEmpty_eq_false_iff.mpr hcommand
  have htrouble : b.make.trouble = none := trouble_eq_none_iff.mpr hbox
  rw [execute]
  simp only [hwords, Bool.false_eq_true, if_false, show b.noTempDir = none from hdirectory, htrouble]

theorem outcome_of_run (h : ∀ n : Need, n.place < Need.file.place → n.Met b req) :
    (execute b dir counter req).outcome = readRun b req := by
  have hcancels : b.cancelsRun = false := h .patience (by decide)
  rw [outcome_of_box dir counter (h .command (by decide)) (h .directory (by decide)) (h .box (by decide)), hcancels]
  rfl

theorem exists_outcome_of_not_box (hcommand : Need.command.Met b req) (hdirectory : Need.directory.Met b req)
    (hbox : ¬ Need.box.Met b req) :
    ∃ text cause, (execute b dir counter req).outcome = .error (.failed .start text cause) := by
  have hwords : req.words.isEmpty = false := List.isEmpty_eq_false_iff.mpr hcommand
  obtain ⟨cause, htrouble⟩ := Option.ne_none_iff_exists'.mp (mt trouble_eq_none_iff.mp hbox)
  rw [execute]
  simp only [hwords, Bool.false_eq_true, if_false, show b.noTempDir = none from hdirectory, htrouble]
  exact ⟨_, _, rfl⟩

theorem exists_outcome_of_not_directory (hcommand : Need.command.Met b req) (hdirectory : ¬ Need.directory.Met b req) :
    ∃ text cause, (execute b dir counter req).outcome = .error (.failed .start text cause) := by
  have hwords : req.words.isEmpty = false := List.isEmpty_eq_false_iff.mpr hcommand
  obtain ⟨cause, hcause⟩ := Option.ne_none_iff_exists'.mp hdirectory
  rw [execute]
  simp only [hwords, Bool.false_eq_true, if_false, hcause]
  exact ⟨_, _, rfl⟩

theorem outcome_of_not_command (h : ¬ Need.command.Met b req) :
    (execute b dir counter req).outcome = .error .emptyCommand := by
  have hwords : req.words.isEmpty = true := List.isEmpty_iff.mpr (not_not.mp h)
  rw [execute, if_pos hwords]

end

/-! ### What the files of a run say -/

section
variable {b : Behaviour} {req : RunRequest} {text : Bytes}

/-- The sample of a run, from its files. -/
def Behaviour.sample (b : Behaviour) (req : RunRequest) (info : Meta) : Sample :=
  { status := info.runStatus req.memoryLimitKb
    stdout := b.stdout.getD []
    stderr := b.stderr.getD []
    exitCode := info.exitCode
    timeMs := info.time * 1000
    memoryKb := info.cgMem }

theorem readRun_of_unreadable (hfile : b.info = some text) (h : ¬ Need.contents.Met b req) :
    ∃ cause, readRun b req = .error (.failed .wait (utf8 "failed to parse isolate meta file") (some cause)) := by
  cases hinfo : readInfo text b.infoTrouble with
  | error cause =>
    refine ⟨cause, ?_⟩
    rw [readRun]
    simp only [hfile, hinfo]
  | ok info =>
    obtain ⟨htrouble, hparse⟩ := readInfo_eq_ok_iff.mp hinfo
    refine absurd ⟨htrouble, fun text' hfile' => ?_⟩ h
    obtain rfl := Option.some.inj (hfile.symm.trans hfile')
    exact usable_of_parse hparse

/-- A meta file that can be read decides between trouble of the sandbox and a sample. -/
theorem readRun_of_readable (hfile : b.info = some text) (h : Need.contents.Met b req) :
    ∃ info, Meta.parse text = .ok info ∧
      readRun b req = if info.status = utf8 "XX" then
          .error (.failed .wait (utf8 "isolate internal error: " ++ info.note) none)
        else .ok (b.sample req info) := by
  obtain ⟨info, hparse⟩ := foldlM_line_of_usable (h.2 text hfile) {}
  have hinfo : readInfo text b.infoTrouble = .ok info := readInfo_eq_ok_iff.mpr ⟨h.1, hparse⟩
  refine ⟨info, hparse, ?_⟩
  rw [readRun]
  simp only [hfile, hinfo, beq_iff_eq]
  rfl

end

/-! ### One call -/

section
variable {b : Behaviour} {req : RunRequest} (dir : Bytes) (counter : Counter)

/-- The first need that is not met decides the fault. -/
theorem exists_fault_of_firstUnmet {n : Need} (h : n.FirstUnmet b req) :
    ∃ fault, (execute b dir counter req).outcome = .error fault ∧ n.Told b fault := by
  obtain ⟨hbefore, hn⟩ := h
  cases n with
  | command => exact ⟨_, outcome_of_not_command dir counter hn, _, _, rfl⟩
  | directory =>
    obtain ⟨text, cause, houtcome⟩ := exists_outcome_of_not_directory dir counter (hbefore .command (by decide)) hn
    exact ⟨_, houtcome, text, cause, rfl⟩
  | box =>
    obtain ⟨text, cause, houtcome⟩ :=
      exists_outcome_of_not_box dir counter (hbefore .command (by decide)) (hbefore .directory (by decide)) hn
    exact ⟨_, houtcome, text, cause, rfl⟩
  | patience =>
    have houtcome := outcome_of_box dir counter (hbefore .command (by decide)) (hbefore .directory (by decide))
      (hbefore .box (by decide))
    have hcancels : b.cancelsRun = true := Bool.of_not_eq_false hn
    rw [if_pos hcancels] at houtcome
    exact ⟨b.reason, houtcome, rfl⟩
  | file =>
    have houtcome := outcome_of_run dir counter hbefore
    have hnone : b.info = none := not_not.mp hn
    rw [readRun, hnone] at houtcome
    exact ⟨_, houtcome, _, _, rfl⟩
  | contents =>
    have houtcome := outcome_of_run dir counter fun n' hlt => hbefore n' (Nat.lt_trans hlt (by decide))
    obtain ⟨text, hfile⟩ := Option.ne_none_iff_exists'.mp (hbefore .file (by decide))
    obtain ⟨cause, hread⟩ := readRun_of_unreadable hfile hn
    exact ⟨_, houtcome.trans hread, _, _, rfl⟩
  | sandbox =>
    have houtcome := outcome_of_run dir counter fun n' hlt => hbefore n' (Nat.lt_trans hlt (by decide))
    obtain ⟨text, hfile⟩ := Option.ne_none_iff_exists'.mp (hbefore .file (by decide))
    obtain ⟨info, hparse, hread⟩ := readRun_of_readable hfile (hbefore .contents (by decide))
    have hstatus : info.status = utf8 "XX" := by
      by_contra hne
      refine hn fun text' hfile' hlast => hne ?_
      obtain rfl := Option.some.inj (hfile.symm.trans hfile')
      exact (lastGives_status_iff hparse (by decide)).mp hlast
    rw [if_pos hstatus] at hread
    exact ⟨_, houtcome.trans hread, _, _, rfl⟩

/-- With all needs met there is a sample, and its files decide it. -/
theorem exists_sample_of_met (h : ∀ n : Need, n.Met b req) :
    ∃ text info, b.info = some text ∧ Meta.parse text = .ok info ∧
      (execute b dir counter req).outcome = .ok (b.sample req info) := by
  obtain ⟨text, hfile⟩ := Option.ne_none_iff_exists'.mp (h .file)
  obtain ⟨info, hparse, hread⟩ := readRun_of_readable hfile (h .contents)
  have hstatus : info.status ≠ utf8 "XX" :=
    fun heq => h .sandbox text hfile ((lastGives_status_iff hparse (by decide)).mpr heq)
  rw [if_neg hstatus] at hread
  exact ⟨text, info, hfile, hparse, (outcome_of_run dir counter fun n' _ => h n').trans hread⟩

theorem exists_sample_iff : (∃ sample, (execute b dir counter req).outcome = .ok sample) ↔ ∀ n : Need, n.Met b req := by
  constructor
  · rintro ⟨sample, hsample⟩
    by_contra hunmet
    obtain ⟨n, hn⟩ := Need.exists_firstUnmet hunmet
    obtain ⟨fault, hfault, -⟩ := exists_fault_of_firstUnmet dir counter hn
    rw [hsample] at hfault
    cases hfault
  · intro h
    obtain ⟨text, info, -, -, hsample⟩ := exists_sample_of_met dir counter h
    exact ⟨_, hsample⟩

/-- Every sample stands for a meta file that was read, with the status that its contents call for. -/
theorem exists_verdict_of_sample {sample : Sample} (h : (execute b dir counter req).outcome = .ok sample) :
    ∃ text info, b.info = some text ∧ Meta.parse text = .ok info ∧ Verdict info req.memoryLimitKb sample.status := by
  obtain ⟨text, info, hfile, hparse, hsample⟩ := exists_sample_of_met dir counter ((exists_sample_iff dir counter).mp ⟨_, h⟩)
  rw [h] at hsample
  cases hsample
  exact ⟨text, info, hfile, hparse, verdict_runStatus info req.memoryLimitKb⟩

end

/-! ### Calls of a measurement -/

/-- An executor whose calls are calls of the sandbox, whatever the tool does at each. -/
def IsSandbox {σ : Type} (ex : Executor σ) : Prop :=
  ∀ cancelled state req, ∃ b dir counter, (ex.execute cancelled state req).outcome = (execute b dir counter req).outcome

/-- How a result tells what the last call brought: a fault is trouble of the harness, a sample never is. -/
structure Reported (result : Result) (outcome : Except Fault Sample) : Prop where
  fault : ∀ f, outcome = .error f →
    result.status = .internalError ∧ result.error = utf8 "execution failed: " ++ f.message
  sample : ∀ s, outcome = .ok s → result.status ≠ .internalError

open Runner in
/-- A measurement with the sandbox ends with its first call that brings no sample, or earlier. -/
theorem exists_last_call {σ : Type} (plan : RunPlan) (request : Request) (p : Program) (s : State σ) {station : Station σ}
    (hsandbox : IsSandbox station.executor) (registered : s.station? p.kind = some station) :
    ∃ last b dir counter,
      (measure plan request p s).2.2.filter Event.isAct =
        List.replicate (last + 1) (.called p.kind (runRequest plan.workDir request p)) ∧
      (∀ i < last, ∃ sample, outcome plan request p s station i = .ok sample) ∧
      outcome plan request p s station last = (execute b dir counter (runRequest plan.workDir request p)).outcome ∧
      Reported (measure plan request p s).1 (outcome plan request p s station last) := by
  obtain ⟨n, -, hfirst, hresult, hcalls⟩ := exists_last_run registered
  have hbefore := accepted_of_not_endsAt hfirst
  obtain ⟨b, dir, counter, hcall⟩ := hsandbox _ _ (runRequest plan.workDir request p)
  have houtcome : outcome plan request p s station n =
      (execute b dir counter (runRequest plan.workDir request p)).outcome := hcall
  have hstatus : ∀ sample, outcome plan request p s station n = .ok sample →
      sample.status ∈ [.success, .memoryLimitExceeded, .timeLimitExceeded, .runtimeError] := by
    intro sample hsample
    obtain ⟨_, _, _, _, hverdict⟩ := exists_verdict_of_sample dir counter (houtcome ▸ hsample)
    exact hverdict.status_mem
  have hdecided : ∀ sample, outcome plan request p s station n = .ok sample → sample.status ≠ .running := by
    intro sample hsample heq
    exact absurd (heq ▸ hstatus sample hsample) (by decide)
  rw [conclude_eq_reference hbefore hdecided] at hresult
  refine ⟨n, b, dir, counter, hcalls, fun i hi => ?_, houtcome, fun fault hfault => ?_, fun sample hsample => ?_⟩
  · cases hi' : outcome plan request p s station i with
    | error fault => exact absurd (hbefore i hi) (by simp [hi', Measure.Accepted])
    | ok sample => exact ⟨sample, rfl⟩
  · rw [hresult]
    simp [reference, hfault]
  · have hinternal : sample.status ≠ .internalError := fun heq => absurd (heq ▸ hstatus sample hsample) (by decide)
    rw [hresult]
    by_cases hs : sample.status = .success
    · by_cases hm : outputMatches sample.stdout p.expectOutput = true <;> simp [reference, hsample, hs, hm]
    · simp [reference, hsample, hs, hinternal]

open Runner in
/-- Trouble of the sandbox and trouble of the program are kept apart. A call brings a sample exactly if all its needs are met,
and otherwise a fault that tells of the first that is not. The status of a sample is what the meta file calls for. And a
measurement is reported as trouble of the harness exactly if its last call brought no sample. -/
theorem troubles_apart (b : Behaviour) (dir : Bytes) (counter : Counter) (req : RunRequest) :
    ((∃ sample, (execute b dir counter req).outcome = .ok sample) ↔ ∀ n : Need, n.Met b req) ∧
    (∀ n : Need, n.FirstUnmet b req →
      ∃ fault, (execute b dir counter req).outcome = .error fault ∧ n.Told b fault) ∧
    (∀ sample, (execute b dir counter req).outcome = .ok sample →
      ∃ text info, b.info = some text ∧ Meta.parse text = .ok info ∧
        Verdict info req.memoryLimitKb sample.status) ∧
    ∀ {σ : Type} (plan : RunPlan) (request : Request) (p : Program) (s : State σ) (station : Station σ),
      IsSandbox station.executor → s.station? p.kind = some station →
      ∃ last b' dir' counter',
        (measure plan request p s).2.2.filter Event.isAct =
          List.replicate (last + 1) (.called p.kind (runRequest plan.workDir request p)) ∧
        (∀ i < last, ∃ sample, outcome plan request p s station i = .ok sample) ∧
        outcome plan request p s station last =
          (execute b' dir' counter' (runRequest plan.workDir request p)).outcome ∧
        Reported (measure plan request p s).1 (outcome plan request p s station last) :=
  ⟨exists_sample_iff dir counter, fun _ => exists_fault_of_firstUnmet dir counter,
    fun _ => exists_verdict_of_sample dir counter,
    fun plan request p s _ hsandbox => exists_last_call plan request p s hsandbox⟩

/-- Two faults at once: memory is named before time, and a caller who has gone before a file that is missing. -/
theorem troubles_apart_two_faults :
    let req : RunRequest := { command := some [utf8 "x"], memoryLimitKb := 1024 }
    let b : Behaviour := { run := .exited 1, info := some (utf8 "status:TO\ncg-mem:2048\nexitcode:1\n") }
    let gone : Behaviour := { run := .exited 1, cancelsRun := true }
    (∃ sample, (execute b [] 0 req).outcome = .ok sample ∧ sample.status = .memoryLimitExceeded) ∧
      Need.patience.FirstUnmet gone req ∧ (execute gone [] 0 req).outcome = .error .canceled := by
  intro req b gone
  refine ⟨⟨_, rfl, ?_⟩, ?_⟩
  · obtain ⟨-, -, hverdict, -⟩ := troubles_apart b [] 0 req
    obtain ⟨text, info, hfile, hparse, hverdict⟩ := hverdict _ rfl
    cases hfile
    have hmem : info.cgMem = 2048 := by
      have hread : (Meta.parse (utf8 "status:TO\ncg-mem:2048\nexitcode:1\n")).map Meta.cgMem = .ok 2048 := rfl
      rw [hparse] at hread
      exact Except.ok.inj hread
    exact hverdict.memory.mpr (.inr ⟨by decide, by rw [hmem]; decide⟩)
  · have hfirst : Need.patience.FirstUnmet gone req := by
      refine ⟨fun n hlt => ?_, fun h => Bool.false_ne_true h.symm⟩
      cases n with
      | command => exact List.cons_ne_nil _ _
      | directory => rfl
      | box => rfl
      | patience | file | contents | sandbox => exact absurd hlt (by decide)
    obtain ⟨fault, houtcome, htold⟩ := (troubles_apart gone [] 0 req).2.1 _ hfirst
    obtain rfl : fault = .canceled := htold
    exact ⟨hfirst, houtcome⟩

end Stopwatch.Isolate
