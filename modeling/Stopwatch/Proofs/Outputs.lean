import Mathlib.Data.List.Forall2
import Stopwatch.Proofs.Measurement
import Stopwatch.Proofs.Trimming

/-!
Outputs that differ in white space at their ends. A measurement looks at the core of an output only: to judge it, to name
it in an error and to record it. So executors whose outputs have the same cores lead to the same result.
-/

namespace Stopwatch

/-! ### Outcomes with more white space -/

/-- An outcome, and the same one with white space around its output. -/
inductive PaddedOutcome : Except Fault Sample → Except Fault Sample → Prop
  | fault (fault : Fault) : PaddedOutcome (.error fault) (.error fault)
  | sample {u v : Bytes} (hu : u.IsBlank) (hv : v.IsBlank) (sample : Sample) :
      PaddedOutcome (.ok sample) (.ok { sample with stdout := u ++ sample.stdout ++ v })

/-- Two calls that differ in such outcomes only. -/
structure Attempt.Pads {σ : Type} (a a' : Attempt σ) : Prop where
  outcome : PaddedOutcome a.outcome a'.outcome
  state : a'.state = a.state
  elapsed : a'.elapsed = a.elapsed
  cancels : a'.cancels = a.cancels

/-- Two executors whose calls differ so. -/
structure Executor.Pads {σ : Type} (ex ex' : Executor σ) : Prop where
  id : ex'.id = ex.id
  execute : ∀ cancelled state req, (ex.execute cancelled state req).Pads (ex'.execute cancelled state req)

/-- Two stations that differ in such executors only. -/
structure Station.Pads {σ : Type} (st st' : Station σ) : Prop where
  kind : st'.kind = st.kind
  state : st'.state = st.state
  executor : st.executor.Pads st'.executor

/-- Two states of a run whose stations differ so. -/
structure Runner.State.Pads {σ : Type} (s s' : Runner.State σ) : Prop where
  stations : List.Forall₂ Station.Pads s.stations s'.stations
  cancelled : s'.cancelled = s.cancelled

namespace Measure

variable {σ : Type}

theorem judge_padded {expected : Bytes} {o o' : Except Fault Sample} (h : PaddedOutcome o o') :
    judge expected o' = judge expected o := by
  cases h with
  | fault fault => rfl
  | @sample u v hu hv sample =>
    have hmatches : outputMatches (u ++ sample.stdout ++ v) expected = outputMatches sample.stdout expected := by
      simpa using outputMatches_append hu hv Bytes.isBlank_nil Bytes.isBlank_nil sample.stdout expected
    simp only [judge, hmatches, Bytes.trim_append hu hv]

theorem Progress.note_padded {o o' : Except Fault Sample} (h : PaddedOutcome o o') (p : Progress) :
    p.note o' = p.note o := by
  cases h with
  | fault fault => rfl
  | sample hu hv sample => simp only [Progress.note, Bytes.trim_append hu hv]

theorem Progress.addTime_padded {o o' : Except Fault Sample} (h : PaddedOutcome o o') (p : Progress) :
    p.addTime o' = p.addTime o := by
  cases h <;> rfl

theorem Session.after_pads {a a' : Attempt σ} (h : a.Pads a') (req : RunRequest) (session : Session σ) :
    session.after req a' = session.after req a := by
  rw [Session.after, Session.after, h.state, h.elapsed, h.cancels]

/-- The run: such executors are measured alike, turn by turn. -/
theorem repeatRuns_pads {ex ex' : Executor σ} (h : ex.Pads ex') (req : RunRequest) (expected : Bytes) (least : Int)
    (budget : Nat) (session : Session σ) (progress : Progress) :
    repeatRuns ex' req expected least budget session progress =
      repeatRuns ex req expected least budget session progress := by
  induction budget generalizing session progress with
  | zero => rfl
  | succ budget ih =>
    have hturn : (session.attempt ex req).Pads (session.attempt ex' req) :=
      h.execute session.cancelled session.state req
    rw [repeatRuns, repeatRuns]
    simp only [judge_padded hturn.outcome, Progress.note_padded hturn.outcome, Progress.addTime_padded hturn.outcome,
      Session.after_pads hturn, ih]

theorem output_conclude (requestId program : Bytes) (ending : Ending) (progress : Progress) :
    (conclude requestId program ending progress).output = progress.output := by
  rw [conclude]
  split <;> rfl

theorem isTrimmed_lastOutput (samples : List Sample) : (lastOutput samples).IsTrimmed := by
  rw [lastOutput]
  cases samples.getLast? with
  | none => exact Bytes.isTrimmed_nil
  | some sample => exact Bytes.isTrimmed_trim sample.stdout

end Measure

namespace Runner

open Stopwatch.Measure

variable {σ : Type} {plan : RunPlan} {req : Request} {p : Program} {s s' : State σ}

/-- Both states have a station of a kind, or neither has. -/
theorem State.Pads.station? (h : s.Pads s') (kind : Bytes) :
    (s.station? kind = none ∧ s'.station? kind = none) ∨
      ∃ st st', s.station? kind = some st ∧ s'.station? kind = some st' ∧ st.Pads st' := by
  have hstations := h.stations
  simp only [State.station?]
  generalize s.stations = stations, s'.stations = stations' at hstations
  induction hstations with
  | nil => exact .inl ⟨rfl, rfl⟩
  | @cons st st' rest rest' hst hrest ih =>
    simp only [List.find?_cons, hst.kind]
    cases st.kind == kind with
    | true => exact .inr ⟨st, st', rfl, rfl, hst⟩
    | false => exact ih

/-- A measurement reports the same, to the octet. -/
theorem measure_pads (h : s.Pads s') : (measure plan req p s').1 = (measure plan req p s).1 := by
  rcases h.station? p.kind with ⟨hnone, hnone'⟩ | ⟨st, st', hst, hst', hpads⟩
  · rw [measure, measure, hnone, hnone']
  · have hsession : s'.session st' = s.session st := by
      rw [State.session, State.session, hpads.state, h.cancelled]
    rw [measure, measure, hst, hst']
    simp only [hsession, repeatRuns_pads hpads.executor]

/-- The recorded output has no white space at its ends. -/
theorem isTrimmed_output : (measure plan req p s).1.output.IsTrimmed := by
  cases registered : s.station? p.kind with
  | none =>
    rw [measure, registered]
    exact Bytes.isTrimmed_nil
  | some station =>
    obtain ⟨n, -, -, hresult, -⟩ := @exists_last_run σ plan req p s station registered
    rw [hresult, output_conclude, (progressAt_shows n).output]
    exact isTrimmed_lastOutput _

/-- It is the core of what the last run printed. -/
theorem isCore_output {station : Station σ} (registered : s.station? p.kind = some station) {n : Nat}
    (first : IsLeast {i | EndsAt plan req p s station i} n) (counted : n < mostRuns) {sample : Sample}
    (last : outcome plan req p s station n = .ok sample) :
    Bytes.IsCore (measure plan req p s).1.output sample.stdout := by
  have hfirst : ∀ i < n, ¬ EndsAt plan req p s station i := fun i hi he => absurd (first.2 he) (by omega)
  obtain ⟨hresult, -⟩ := measure_eq registered counted hfirst (Or.inl first.1)
  have houtput : (measure plan req p s).1.output = sample.stdout.trim := by
    rw [hresult, output_conclude, (progressAt_shows n).output, outcomes, List.range_succ, List.map_append,
      List.map_singleton, last, samplesOf_concat]
    simp [lastOutput, Except.toOption]
  rw [houtput]
  exact Bytes.isCore_trim sample.stdout

/-- Outputs are compared up to the white space around them, and nothing else: every text has one core, and an expected
text that is more than white space is met exactly by its core with white space around it. The recorded output is the core
of what the last run printed, so trimming it again changes nothing, and a measurement whose runs print the same with
other white space around it has the same result. -/
theorem white_space_around_ignored {σ : Type} :
    (∀ a e w₁ w₂ w₃ w₄ : Bytes, w₁.IsBlank → w₂.IsBlank → w₃.IsBlank → w₄.IsBlank →
      outputMatches (w₁ ++ a ++ w₂) (w₃ ++ e ++ w₄) = outputMatches a e) ∧
    (∀ e : Bytes, ∃! core, Bytes.IsCore core e) ∧
    (∀ a e core : Bytes, Bytes.IsCore core e → ¬ e.IsBlank →
      (outputMatches a e = true ↔ ∃ u v : Bytes, u.IsBlank ∧ v.IsBlank ∧ a = u ++ core ++ v)) ∧
    (∀ (plan : RunPlan) (req : Request) (p : Program) (s : State σ), (measure plan req p s).1.output.IsTrimmed ∧
      (measure plan req p s).1.output.trim = (measure plan req p s).1.output) ∧
    (∀ (plan : RunPlan) (req : Request) (p : Program) (s : State σ) (station : Station σ) (n : Nat) (sample : Sample),
      s.station? p.kind = some station → IsLeast {i | EndsAt plan req p s station i} n → n < mostRuns →
      outcome plan req p s station n = .ok sample → Bytes.IsCore (measure plan req p s).1.output sample.stdout) ∧
    ∀ (plan : RunPlan) (req : Request) (p : Program) (s s' : State σ), s.Pads s' →
      (measure plan req p s').1 = (measure plan req p s).1 := by
  refine ⟨?_, ?_, ?_, ?_, ?_, ?_⟩
  · intro a e w₁ w₂ w₃ w₄ h₁ h₂ h₃ h₄
    exact outputMatches_append h₁ h₂ h₃ h₄ a e
  · intro e
    exact ⟨e.trim, Bytes.isCore_trim e, fun core hcore => hcore.trim.symm⟩
  · intro a e core hcore h
    exact outputMatches_iff hcore h
  · intro plan req p s
    exact ⟨isTrimmed_output, isTrimmed_output.trim⟩
  · intro plan req p s station n sample registered first counted last
    exact isCore_output registered first counted last
  · intro plan req p s s' h
    exact measure_pads h

/-- A truncated character between white space of several kinds, and a program that prints an em space before its
answer. -/
theorem white_space_around_ignored_truncated :
    let p : Program := { name := utf8 "fib", expectOutput := utf8 "5" }
    let station (out : Bytes) : Station Nat :=
      { kind := utf8 "direct", executor := tape (fun _ => .ok { stdout := out }) (· + 1), state := 0 }
    let state (out : Bytes) : State Nat := { stations := [station out] }
    outputMatches (utf8 "\u00a0" ++ [0xe2, 0x80] ++ utf8 "\u2003\n") (utf8 "\t" ++ [0xe2, 0x80] ++ []) =
        outputMatches [0xe2, 0x80] [0xe2, 0x80] ∧
      outputMatches (utf8 "\u2003" ++ utf8 "5" ++ utf8 "\n") (utf8 " 5\n") = true ∧
      Bytes.IsCore (measure {} {} p (state (utf8 "5"))).1.output (utf8 "5") ∧
      (measure {} {} p (state (utf8 "\u2003" ++ utf8 "5" ++ utf8 "\n"))).1 =
        (measure {} {} p (state (utf8 "5"))).1 := by
  intro p station state
  obtain ⟨hpadding, -, hcore, -, hlast, hsame⟩ := @white_space_around_ignored Nat
  have hspace : (utf8 "\u2003").IsBlank := by decide +kernel
  have hfeed : (utf8 "\n").IsBlank := by decide +kernel
  refine ⟨?_, ?_, ?_, ?_⟩
  · exact hpadding _ _ _ _ _ _ (by decide +kernel) (by decide +kernel) (by decide +kernel) Bytes.isBlank_nil
  · refine (hcore _ _ (utf8 "5") (by decide +kernel) (by decide +kernel)).mpr ?_
    exact ⟨_, _, hspace, hfeed, rfl⟩
  · have hends : EndsAt {} {} p (state (utf8 "5")) (station (utf8 "5")) 0 := .inr (Int.natCast_nonneg _)
    exact hlast {} {} p _ (station (utf8 "5")) 0 _ rfl ⟨hends, fun i _ => Nat.zero_le i⟩ (by decide) rfl
  · refine hsame {} {} p (state (utf8 "5")) _ ⟨.cons ⟨rfl, rfl, rfl, fun c n r => ?_⟩ .nil, rfl⟩
    exact ⟨.sample hspace hfeed { stdout := utf8 "5" }, rfl, rfl, rfl⟩

end Runner

end Stopwatch
