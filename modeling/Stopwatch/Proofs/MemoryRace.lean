import Mathlib.Tactic.Common
import Stopwatch.Proofs.Courses

/-!
Verdicts in every race. Whatever the order of the steps, a verdict of too much memory stands for a look that showed it.
Status and exit code agree except where the flag is up in the end although the process came to an end of its own: that end
has set the exit code, and the last look changes the status alone.
-/

namespace Stopwatch.Direct

open Race

/-! ### Too much memory -/

theorem exceeds_mono {limitKb : Int64} {rss rss' : UInt64} (hle : rss ≤ rss') (h : exceeds limitKb rss = true) :
    exceeds limitKb rss' = true := by
  simp only [exceeds, Bool.and_eq_true, decide_eq_true_eq] at h ⊢
  have hdiv : rss.toNat / 1024 ≤ rss'.toNat / 1024 := Nat.div_le_div_right (UInt64.le_iff_toNat_le.mp hle)
  exact ⟨h.1, by omega⟩

theorem lt_of_exceeds {limitKb : Int64} {rss : UInt64} (h : exceeds limitKb rss = true) :
    0 < limitKb ∧ limitKb < Int64.ofNat (rss.toNat / 1024) := by
  simp only [exceeds, Bool.and_eq_true, decide_eq_true_eq] at h
  have hword := rss.toNat_lt
  refine ⟨h.1, Int64.lt_iff_toInt_lt.mpr ?_⟩
  rw [Int64.toInt_ofNat_of_lt (by omega)]
  exact h.2

namespace Race

theorem le_higher_left (peak rss : UInt64) : peak ≤ higher peak rss := by
  rw [higher]
  split
  · next hlt => exact UInt64.le_of_lt hlt
  · exact UInt64.le_refl _

theorem le_higher_right (peak rss : UInt64) : rss ≤ higher peak rss := by
  rw [higher]
  split
  · exact UInt64.le_refl _
  · next hle => exact UInt64.not_lt.mp hle

/-! ### What holds in every race -/

/-- Whether the flag was up when the basis of a verdict was laid. -/
def Basis.early : Basis → Bool
  | .ended _ early => early
  | .stopped _ => false

/-- What the wait brought, if the verdict rests on that. -/
def Basis.waited? : Basis → Option Waited
  | .ended waited _ => some waited
  | .stopped _ => none

/-- What a stage may hold while the flag is up or not: no failure with code zero, and no flag that was taken down. -/
def Stage.IsSound (req : RunRequest) (flagged : Bool) : Stage → Prop
  | .waiting | .stopping => True
  | .received waited => waited ≠ .failed 0
  | .judged basis => basis.waited? ≠ some (.failed 0) ∧ (basis.early = true → flagged = true)
  | .answered basis late peak => basis.waited? ≠ some (.failed 0) ∧ (basis.early = true → late = true) ∧
      (late = true → exceeds req.memoryLimitKb peak = true)

/-- The state of a race: an alarm stands for a look, and no process fails with code zero. -/
structure Sound (req : RunRequest) (s : State) : Prop where
  alarm : s.monitor = .alarmed ∨ s.monitor = .raised ∨ s.flagged = true → exceeds req.memoryLimitKb s.peak = true
  process : s.process ≠ some (.failed 0)
  stage : s.stage.IsSound req s.flagged

variable {req : RunRequest} {s s' : State}

theorem sound_start : Sound req {} := by
  refine ⟨?_, ?_, ?_⟩ <;> simp [Stage.IsSound]

theorem Stage.IsSound.raise {stage : Stage} {flagged : Bool} (h : stage.IsSound req flagged) : stage.IsSound req true := by
  cases stage with
  | judged basis => exact ⟨h.1, fun _ => rfl⟩
  | waiting | stopping | received _ | answered _ _ _ => exact h

theorem ofEnding_ne (ending : Ending) (outlives : Bool) : Waited.ofEnding ending outlives ≠ .failed 0 := by
  cases ending with
  | signaled signal => simp [Waited.ofEnding]
  | exited code =>
    intro h
    simp only [Waited.ofEnding] at h
    split at h
    · split at h <;> cases h
    · next hcode =>
      injection h with hzero
      have hvalue := congrArg Int64.toInt hzero
      rw [Int64.toInt_ofNat_of_lt (by omega), Int64.toInt_zero] at hvalue
      omega

/-- A kill changes nothing but the end of the process. -/
theorem Sound.killed (h : Sound req s) : Sound req s.killed := by
  rw [State.killed]
  split
  · exact h
  · refine { h with process := ?_ }
    have hprocess := h.process
    cases hs : s.process with
    | none => simp
    | some waited => simpa [hs] using hprocess

@[simp] theorem killed_monitor : s.killed.monitor = s.monitor := by rw [State.killed]; split <;> rfl

/-- Every step keeps a race sound. -/
theorem Sound.step (h : Sound req s) {e : Event} (hstep : step req s e = some s') : Sound req s' := by
  cases e with
  | read rss =>
    simp only [Race.step, Option.ite_none_right_eq_some, Option.some.injEq] at hstep
    obtain ⟨hwatching, rfl⟩ := hstep
    refine { h with alarm := fun halarm => ?_ }
    -- A new alarm comes from what was just seen, an old flag from what was seen before.
    rcases halarm with halarm | halarm | hflagged
    · refine exceeds_mono (le_higher_right s.peak rss) ?_
      by_contra hwithin
      simp [hwithin] at halarm
    · split at halarm <;> cases halarm
    · exact exceeds_mono (le_higher_left s.peak rss) (h.alarm (.inr (.inr hflagged)))
  | raise =>
    simp only [Race.step, Option.ite_none_right_eq_some, Option.some.injEq] at hstep
    obtain ⟨halarmed, rfl⟩ := hstep
    have hexceeds := h.alarm (.inl halarmed)
    exact { h with alarm := fun _ => hexceeds, stage := h.stage.raise }
  | kill =>
    simp only [Race.step, Option.ite_none_right_eq_some, Option.some.injEq] at hstep
    obtain ⟨hraised, rfl⟩ := hstep
    have hkilled := h.killed
    refine { hkilled with alarm := fun halarm => hkilled.alarm ?_ }
    rw [killed_monitor]
    exact .inr (.inl hraised)
  | leave =>
    simp only [Race.step, Option.ite_none_right_eq_some, Option.some.injEq] at hstep
    obtain ⟨-, rfl⟩ := hstep
    refine { h with alarm := fun halarm => h.alarm ?_ }
    rcases halarm with halarm | halarm | hflagged
    · cases halarm
    · cases halarm
    · exact .inr (.inr hflagged)
  | depart =>
    simp only [Race.step, Option.ite_none_right_eq_some, Option.some.injEq] at hstep
    obtain ⟨-, rfl⟩ := hstep
    exact { h with }
  | exit ending outlives =>
    simp only [Race.step, Option.ite_none_right_eq_some, Option.some.injEq] at hstep
    obtain ⟨-, rfl⟩ := hstep
    exact { h with process := fun hfailed => ofEnding_ne ending outlives (Option.some.inj hfailed) }
  | expire =>
    simp only [Race.step, Option.ite_none_right_eq_some, Option.some.injEq] at hstep
    obtain ⟨-, rfl⟩ := hstep
    exact { h with }
  | giveUp =>
    simp only [Race.step, Option.some.injEq] at hstep
    subst hstep
    exact { h with }
  | receive =>
    simp only [Race.step] at hstep
    split at hstep
    · next waited _ hprocess =>
      cases hstep
      exact { h with stage := fun hfailed => h.process (hfailed ▸ hprocess) }
    · cases hstep
  | stop =>
    simp only [Race.step, Option.ite_none_right_eq_some, Option.some.injEq] at hstep
    obtain ⟨-, rfl⟩ := hstep
    exact { h.killed with stage := trivial }
  | drain =>
    simp only [Race.step, Option.ite_none_right_eq_some, Option.some.injEq] at hstep
    obtain ⟨-, rfl⟩ := hstep
    exact { h with stage := ⟨by simp [Basis.waited?], by simp [Basis.early]⟩ }
  | judge =>
    simp only [Race.step] at hstep
    split at hstep
    · next waited hstage =>
      cases hstep
      have hreceived : waited ≠ .failed 0 := by simpa [hstage, Stage.IsSound] using h.stage
      exact { h with stage := ⟨fun hfailed => hreceived (Option.some.inj hfailed), id⟩ }
    · cases hstep
  | answer =>
    simp only [Race.step] at hstep
    split at hstep
    · next basis hstage =>
      cases hstep
      have hjudged : Stage.IsSound req s.flagged (.judged basis) := hstage ▸ h.stage
      exact { h with stage := ⟨hjudged.1, hjudged.2, fun hflagged => h.alarm (.inr (.inr hflagged))⟩ }
    · cases hstep

/-- Whatever the order of the steps, a race stays sound. -/
theorem sound_run {events : List Event} (h : Sound req s) (hrun : run req s events = some s') : Sound req s' := by
  induction events generalizing s with
  | nil =>
    cases hrun
    exact h
  | cons e rest ih =>
    rw [run_cons] at hrun
    obtain ⟨mid, hstep, hrest⟩ := Option.bind_eq_some_iff.mp hrun
    exact ih (h.step hstep) hrest

/-! ### Verdicts -/

/-- Status and exit code that go together: zero means success, and too much memory has no exit code of its own. -/
structure Verdict.IsConsistent (v : Verdict) : Prop where
  success : v.exitCode = 0 ↔ v.status = .success
  memory : v.status = .memoryLimitExceeded → v.exitCode = -1

/-- The end of a process that was not taken for a kill: a clean one, or a failure with a code of its own that was judged
before the flag was up. -/
def Basis.IsOwnEnd : Basis → Prop
  | .ended .clean _ => True
  | .ended (.failed code) false => code ≠ -1
  | _ => False

section
variable {basis : Basis} {late : Bool} {peak : UInt64} {v : Verdict} (hearly : basis.early = true → late = true)
  (hanswer : basis.answer late peak = .ok v)
include hanswer

theorem answer_memoryKb : v.memoryKb = Int64.ofNat (peak.toNat / 1024) := by
  rw [Basis.answer] at hanswer
  cases hjudgement : basis.judgement with
  | error fault => simp [hjudgement, Except.map] at hanswer
  | ok judged =>
    rw [hjudgement] at hanswer
    cases hanswer
    rfl

include hearly

/-- Too much memory is said only with the flag up. -/
theorem late_of_memory (hstatus : v.status = .memoryLimitExceeded) : late = true := by
  by_contra hdown
  rw [Bool.not_eq_true] at hdown
  subst hdown
  rcases basis with ⟨waited, early⟩ | gaveUp
  · have hunflagged : early = false := by simpa [Basis.early] using hearly
    subst hunflagged
    cases waited <;> cases hanswer <;> cases hstatus
  · cases gaveUp <;> cases hanswer
    cases hstatus

/-- Status and exit code part exactly where the flag is up over an end of the process's own. -/
theorem isConsistent_iff (hwaited : basis.waited? ≠ some (.failed 0)) :
    v.IsConsistent ↔ ¬ (late = true ∧ basis.IsOwnEnd) := by
  rcases basis with ⟨waited, early⟩ | gaveUp
  · cases waited with
    | clean =>
      cases late <;> cases hanswer
      · exact iff_of_true ⟨by simp, by simp⟩ (by simp)
      · exact iff_of_false (fun h => by cases h.success.mp rfl) (by simp [Basis.IsOwnEnd])
    | failed code =>
      have hcode : code ≠ 0 := fun hzero => hwaited (by rw [hzero]; rfl)
      cases early with
      | true =>
        have hlate : late = true := hearly rfl
        subst hlate
        cases hanswer
        exact iff_of_true ⟨by simp, by simp⟩ (by simp [Basis.IsOwnEnd])
      | false =>
        cases late <;> cases hanswer
        · exact iff_of_true ⟨by simp [hcode], by simp⟩ (by simp)
        · constructor
          · rintro hconsistent ⟨-, hown⟩
            exact hown (hconsistent.memory rfl)
          · intro hkilled
            have hminus : code = -1 := by simpa [Basis.IsOwnEnd] using hkilled
            exact ⟨by simp [hminus], fun _ => hminus⟩
    | outlived =>
      cases early with
      | true =>
        have hlate : late = true := hearly rfl
        subst hlate
        cases hanswer
        exact iff_of_true ⟨by simp, by simp⟩ (by simp [Basis.IsOwnEnd])
      | false => cases hanswer
  · cases gaveUp <;> cases hanswer
    -- The code of a stopped wait is -1, whatever the last look shows.
    cases late <;> exact iff_of_true ⟨by simp, by simp⟩ (by simp [Basis.IsOwnEnd])

end

end Race

/-! ### Calls -/

/-- Whatever a call returns was said at the end of a race. -/
theorem exists_race_of_call {σ : Type} {spawn : Spawn σ} {quit : Option Nat} {state : σ} {req : RunRequest}
    {result : Sample} (hcall : (call spawn quit state req).1 = .ok result) :
    ∃ events s basis late peak, run req {} events = some s ∧ s.stage = .answered basis late peak ∧
      basis.answer late peak = .ok ⟨result.status, result.exitCode, result.memoryKb⟩ := by
  simp only [call] at hcall
  split at hcall
  · cases hcall
  · split at hcall
    · cases hcall
    · next t after _ =>
      simp only [verdict] at hcall
      cases hraced : (run req {} (course t quit req).events).bind State.answer? with
      | none => simp [hraced, Except.map] at hcall
      | some answer =>
        rw [hraced, Option.getD_some] at hcall
        obtain ⟨s, hrun, hanswered⟩ := Option.bind_eq_some_iff.mp hraced
        cases answer with
        | error fault => cases hcall
        | ok v =>
          cases hcall
          rw [State.answer?] at hanswered
          split at hanswered
          · next basis late peak hstage =>
            exact ⟨_, s, basis, late, peak, hrun, hstage, Option.some.inj hanswered⟩
          · cases hanswered

/-- With every step at its moment, only a process that has left its group can part status and exit code. -/
theorem isConsistent_of_inGroup {t : Timeline} {quit : Option Nat} {req : RunRequest} {result : Sample}
    (hgroup : t.apart = false) (hverdict : (verdict t quit req).1 = .ok result) :
    (⟨result.status, result.exitCode, result.memoryKb⟩ : Verdict).IsConsistent := by
  obtain ⟨peak, hraced⟩ := exists_answer_course t quit req
  simp only [verdict, hraced] at hverdict
  cases hbasis : basis t quit req with
  | none => simp [hbasis, Except.map] at hverdict
  | some laid =>
    rw [hbasis, Option.map_some, Option.getD_some] at hverdict
    simp only [basis, hgroup, Bool.not_false, Bool.and_true] at hbasis
    generalize isFlagged t _ req.memoryLimitKb = flagged at hbasis hverdict
    cases hanswer : laid.answer flagged peak with
    | error fault =>
      rw [hanswer] at hverdict
      cases hverdict
    | ok v =>
      rw [hanswer] at hverdict
      cases hverdict
      cases flagged with
      | true =>
        rw [if_pos rfl] at hbasis
        cases hbasis
        exact (isConsistent_iff (fun _ => rfl) hanswer (by simp [Basis.waited?])).mpr (by simp [Basis.IsOwnEnd])
      | false =>
        rw [if_neg Bool.false_ne_true] at hbasis
        split at hbasis
        · cases hbasis
          exact (isConsistent_iff (by simp [Basis.early]) hanswer (by simp [Basis.waited?])).mpr (by simp)
        · split at hbasis
          · cases hbasis
            have hwaited := fun h => ofEnding_ne (ending t).1 (ending t).2 (Option.some.inj h)
            exact (isConsistent_iff (by simp [Basis.early]) hanswer hwaited).mpr (by simp)
          · cases hbasis

/-- The verdict in every race and of every call. Too much memory is said only above a limit that is set. Status and exit
code agree unless the last look finds the flag up over an end of the process's own. On the course without delays, where
what is due at a moment happens at that moment, this takes a process that has left its group; with delays it does not. -/
theorem verdict_consistent_iff (req : RunRequest) :
    (∀ events s basis late peak v, run req {} events = some s → s.stage = .answered basis late peak →
      basis.answer late peak = .ok v →
        (v.status = .memoryLimitExceeded → 0 < req.memoryLimitKb ∧ req.memoryLimitKb < v.memoryKb) ∧
        (v.IsConsistent ↔ ¬ (late = true ∧ basis.IsOwnEnd))) ∧
    (∀ (σ : Type) (spawn : Spawn σ) quit state result, (call spawn quit state req).1 = .ok result →
      ∃ events s basis late peak, run req {} events = some s ∧ s.stage = .answered basis late peak ∧
        basis.answer late peak = .ok ⟨result.status, result.exitCode, result.memoryKb⟩) ∧
    (∀ t quit result, t.apart = false → (verdict t quit req).1 = .ok result →
      (⟨result.status, result.exitCode, result.memoryKb⟩ : Verdict).IsConsistent) := by
  refine ⟨?_, fun _ _ _ _ _ => exists_race_of_call, fun _ _ _ => isConsistent_of_inGroup⟩
  intro events s basis late peak v hrun hstage hanswer
  have hsound : Stage.IsSound req s.flagged (.answered basis late peak) := hstage ▸ (sound_run sound_start hrun).stage
  obtain ⟨hwaited, hearly, hexceeds⟩ := hsound
  refine ⟨fun hstatus => ?_, isConsistent_iff hearly hanswer hwaited⟩
  rw [answer_memoryKb hanswer]
  exact lt_of_exceeds (hexceeds (late_of_memory hearly hanswer hstatus))

/-- A clean end just after the look that condemned it, a code received before the flag was up, and a call on a process
that has left its group: each is said to have used too much memory, with an exit code of its own. -/
theorem verdict_consistent_iff_fails_own_end :
    let req : RunRequest := { command := some [utf8 "job"], memoryLimitKb := 10000 }
    let clean : List Race.Event :=
      [.read 20480000, .raise, .exit (.exited 0) false, .kill, .receive, .judge, .answer]
    let failing : List Race.Event :=
      [.read 20480000, .exit (.exited 3) false, .receive, .judge, .raise, .answer]
    let t : Timeline :=
      { exit := some (1000000000, .exited 0), closed := some 1000000000, memory := [(0, 20480000)], apart := true }
    (run req {} clean).bind State.answer? = some (.ok ⟨.memoryLimitExceeded, 0, 20000⟩) ∧
      ¬ (⟨.memoryLimitExceeded, 0, 20000⟩ : Verdict).IsConsistent ∧
      (run req {} failing).bind State.answer? = some (.ok ⟨.memoryLimitExceeded, 3, 20000⟩) ∧
      ¬ (⟨.memoryLimitExceeded, 3, 20000⟩ : Verdict).IsConsistent ∧
      (call (fun (_ : Unit) _ => .ok (t, ())) none () req).1.map (fun r => (r.status, r.exitCode)) =
        .ok (.memoryLimitExceeded, 0) := by
  intro req clean failing t
  have hclean : run req {} clean = some
      { process := some .clean, monitor := .gone, flagged := true, peak := 20480000
        stage := .answered (.ended .clean true) true 20480000 } := by decide +kernel
  have hfailing : run req {} failing = some
      { process := some (.failed 3), monitor := .raised, flagged := true, peak := 20480000
        stage := .answered (.ended (.failed 3) false) true 20480000 } := by decide +kernel
  have hcleanAnswer : Basis.answer (.ended .clean true) true 20480000 = .ok ⟨.memoryLimitExceeded, 0, 20000⟩ := by
    decide +kernel
  have hfailingAnswer :
      Basis.answer (.ended (.failed 3) false) true 20480000 = .ok ⟨.memoryLimitExceeded, 3, 20000⟩ := by
    decide +kernel
  refine ⟨?_, ?_, ?_, ?_, by decide +kernel⟩
  · rw [hclean, Option.bind_some]
    exact congrArg some hcleanAnswer
  · have hiff := ((verdict_consistent_iff req).1 clean _ _ _ _ _ hclean rfl hcleanAnswer).2
    exact fun h => hiff.mp h ⟨rfl, trivial⟩
  · rw [hfailing, Option.bind_some]
    exact congrArg some hfailingAnswer
  · have hiff := ((verdict_consistent_iff req).1 failing _ _ _ _ _ hfailing rfl hfailingAnswer).2
    exact fun h => hiff.mp h ⟨rfl, show (3 : Int64) ≠ -1 by decide⟩

end Stopwatch.Direct
