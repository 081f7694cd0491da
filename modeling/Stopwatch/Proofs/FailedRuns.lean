import Stopwatch.Proofs.SandboxVerdict

/-!
Runs that fail inside the sandbox. The ending of a run and its meta file both tell of a failure, but only the meta file is
looked at: a run that ends badly without a word about it in the file is taken for a success.
-/

namespace Stopwatch.Isolate

/-! ### What a meta file says against a success -/

/-- The last line of a key gives a count of some kind. -/
def CountIn (text : Bytes) (k : Key) (P : Int64 → Prop) : Prop :=
  ∃ value n, LastGives (splitLines text) k.word value ∧ Integer.read value = .ok n ∧ P n

/-- A count that no line gives is zero. -/
theorem countIn_iff {text : Bytes} {info : Meta} (h : Meta.parse text = .ok info) {k : Key} {n : Int64} {P : Int64 → Prop}
    (hk : info.entry k = .count n) (hread : ∀ value, k.read value = (Integer.read value).map .count)
    (hzero : ({} : Meta).entry k = .count 0) (hP : ¬ P 0) : CountIn text k P ↔ P n := by
  obtain ⟨hsome, hnone⟩ := foldlM_line_entry h k
  constructor
  · rintro ⟨value, n', hlast, hvalue, hn⟩
    have hentry := hsome value (Key.lastIn_eq_some_iff.mpr hlast)
    rw [hread, hvalue, hk] at hentry
    exact Entry.count.inj (Except.ok.inj hentry) ▸ hn
  · intro hn
    cases hlast : k.lastIn (splitLines text) with
    | none =>
      have hentry := hnone hlast
      rw [hk, hzero] at hentry
      exact absurd (Entry.count.inj hentry ▸ hn) hP
    | some value =>
      have hentry := hsome value hlast
      rw [hread, hk] at hentry
      obtain ⟨n', hn', heq⟩ := eq_ok_of_map hentry
      exact ⟨value, n', Key.lastIn_eq_some_iff.mp hlast, hn', Entry.count.inj heq ▸ hn⟩

/-- What a meta file says against a success: a verdict of the sandbox, an exit code, or memory. -/
def Tells (text : Bytes) (limit : Int64) : Prop :=
  (∃ word ∈ [utf8 "TO", utf8 "RE", utf8 "SG"], LastGives (splitLines text) (utf8 "status") word) ∨
    CountIn text .exitCode (fun n => n ≠ 0) ∨ CountIn text .oomKilled (fun n => 0 < n) ∨
    (0 < limit ∧ CountIn text .cgMem fun n => limit < n)

theorem tells_iff {text : Bytes} {info : Meta} (h : Meta.parse text = .ok info) (limit : Int64) :
    Tells text limit ↔
      info.status ∈ [utf8 "TO", utf8 "RE", utf8 "SG"] ∨ info.exitCode ≠ 0 ∨ OverMemory info limit := by
  have hstatus : (∃ word ∈ [utf8 "TO", utf8 "RE", utf8 "SG"], LastGives (splitLines text) (utf8 "status") word) ↔
      info.status ∈ [utf8 "TO", utf8 "RE", utf8 "SG"] := by
    constructor
    · rintro ⟨word, hword, hlast⟩
      have hne : word ≠ [] := fun heq => absurd (heq ▸ hword) (by decide)
      exact (lastGives_status_iff h hne).mp hlast ▸ hword
    · intro hmem
      have hne : info.status ≠ [] := fun heq => absurd (heq ▸ hmem) (by decide)
      exact ⟨info.status, hmem, (lastGives_status_iff h hne).mpr rfl⟩
  have hcode := countIn_iff h (k := .exitCode) (P := fun n => n ≠ 0) rfl (fun _ => rfl) rfl (by decide)
  have hkilled := countIn_iff h (k := .oomKilled) (P := fun n => 0 < n) rfl (fun _ => rfl) rfl (by decide)
  have hpeak : (0 < limit ∧ CountIn text .cgMem fun n => limit < n) ↔ 0 < limit ∧ limit < info.cgMem :=
    and_congr_right fun hlimit =>
      countIn_iff h (k := .cgMem) (P := fun n => limit < n) rfl (fun _ => rfl) rfl (Int64.not_lt.mpr (Int64.le_of_lt hlimit))
  rw [Tells, hstatus, hcode, hkilled, hpeak, OverMemory]

/-! ### Endings of runs -/

section
variable {b : Behaviour} {req : RunRequest} (dir : Bytes) (counter : Counter)

/-- A sample is a success exactly if nothing in the meta file speaks against it. -/
theorem exists_success_iff :
    (∃ sample, (execute b dir counter req).outcome = .ok sample ∧ sample.status = .success) ↔
      (∀ n : Need, n.Met b req) ∧ ∀ text, b.info = some text → ¬ Tells text req.memoryLimitKb := by
  have hsuccess : ∀ {text info status}, Meta.parse text = .ok info → Verdict info req.memoryLimitKb status →
      (status = .success ↔ ¬ Tells text req.memoryLimitKb) := by
    intro text info status hparse hverdict
    rw [hverdict.success, tells_iff hparse, not_or, not_or, not_overMemory_iff, not_not]
    tauto
  constructor
  · rintro ⟨sample, hsample, hstatus⟩
    refine ⟨(exists_sample_iff dir counter).mp ⟨sample, hsample⟩, fun text hfile => ?_⟩
    obtain ⟨text', info, hfile', hparse, hverdict⟩ := exists_verdict_of_sample dir counter hsample
    obtain rfl := Option.some.inj (hfile.symm.trans hfile')
    exact (hsuccess hparse hverdict).mp hstatus
  · rintro ⟨hmet, hsilent⟩
    obtain ⟨sample, hsample⟩ := (exists_sample_iff dir counter).mpr hmet
    obtain ⟨text, info, hfile, hparse, hverdict⟩ := exists_verdict_of_sample dir counter hsample
    exact ⟨sample, hsample, (hsuccess hparse hverdict).mpr (hsilent text hfile)⟩

/-- No need asks how the run ended. -/
theorem Need.met_run {n : Need} {e : Ending} : n.Met { b with run := e } req ↔ n.Met b req := by
  cases n <;> exact Iff.rfl

/-- Where there is a meta file, a call does not look at how the run ended. -/
theorem outcome_run {e : Ending} (h : b.info ≠ none) :
    (execute { b with run := e } dir counter req).outcome = (execute b dir counter req).outcome := by
  obtain ⟨text, hfile⟩ := Option.ne_none_iff_exists'.mp h
  have hread : readRun { b with run := e } req = readRun b req := by
    rw [readRun, readRun]
    simp only [hfile]
  rw [execute, execute, hread]
  cases req.words.isEmpty with
  | true => rfl
  | false => cases b.noTempDir <;> cases b.make.trouble <;> rfl

end

/-- A run that ends badly is taken for a success unless something else tells of it: a need that is not met, or the meta
file. The ending of the run itself has no part in what a call returns, as long as there is a meta file. -/
theorem failed_run_seen_iff (b : Behaviour) (dir : Bytes) (counter : Counter) (req : RunRequest) (code : Nat) :
    ((¬ ∃ sample, (execute { b with run := .exited (code + 1) } dir counter req).outcome = .ok sample ∧
        sample.status = .success) ↔
      (∃ n : Need, ¬ n.Met b req) ∨ ∃ text, b.info = some text ∧ Tells text req.memoryLimitKb) ∧
    (b.info ≠ none → (execute { b with run := .exited (code + 1) } dir counter req).outcome =
      (execute { b with run := .exited 0 } dir counter req).outcome) := by
  refine ⟨?_, fun hfile => (outcome_run dir counter hfile).trans (outcome_run dir counter hfile).symm⟩
  rw [exists_success_iff, not_and_or, not_forall, not_forall]
  refine or_congr (exists_congr fun n => not_congr Need.met_run) (exists_congr fun text => ?_)
  rw [Classical.not_imp, not_not]

/-- A run that ends with status 2 and leaves a meta file with nothing but a time. -/
theorem failed_run_seen_iff_fails_partial :
    let req : RunRequest := { command := some [utf8 "x"], program := utf8 "p" }
    let b : Behaviour := { run := .exited 2, info := some (utf8 "time:0.5\n") }
    ∃ sample, (execute b (utf8 "t") 0 req).outcome = .ok sample ∧ sample.status = .success := by
  intro req b
  have hsilent : ∀ (k : Key) value, k ≠ .time → ¬ LastGives (splitLines (utf8 "time:0.5\n")) k.word value := by
    intro k value hk hlast
    have hnone : k.lastIn (splitLines (utf8 "time:0.5\n")) = none := by
      cases k <;> trivial
    rw [← Key.lastIn_eq_some_iff, hnone] at hlast
    cases hlast
  by_contra hseen
  rcases (failed_run_seen_iff b (utf8 "t") 0 req 1).1.mp hseen with ⟨n, hn⟩ | ⟨text, hfile, htells⟩
  · refine hn ?_
    cases n with
    | command => exact List.cons_ne_nil _ _
    | directory | box | patience => rfl
    | file => exact Option.some_ne_none _
    | contents =>
      refine ⟨rfl, fun text hfile => ?_⟩
      cases hfile
      obtain ⟨info, hparse⟩ : ∃ info, Meta.parse (utf8 "time:0.5\n") = .ok info := ⟨_, rfl⟩
      exact usable_of_parse hparse
    | sandbox =>
      intro text hfile
      cases hfile
      exact hsilent .status _ (by decide)
  · cases hfile
    rcases htells with ⟨word, -, hlast⟩ | ⟨value, n, hlast, -⟩ | ⟨value, n, hlast, -⟩ | ⟨-, value, n, hlast, -⟩
    · exact hsilent .status _ (by decide) hlast
    · exact hsilent .exitCode _ (by decide) hlast
    · exact hsilent .oomKilled _ (by decide) hlast
    · exact hsilent .cgMem _ (by decide) hlast

end Stopwatch.Isolate
