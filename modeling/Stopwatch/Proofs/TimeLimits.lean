import Mathlib.Algebra.Ring.Int.Defs
import Stopwatch.InProcess.Executor
import Stopwatch.Proofs.Courses

/-!
Time limits in 64 bits. A limit in milliseconds becomes a span of nanoseconds in a word, which wraps: up to 9223372036854
the span is what the limit says, and from there on it is shorter, often negative. The executors stop a command when that
span is over, so a limit that wraps stops commands which the limit itself would let go on.
-/

namespace Stopwatch

/-! ### The span of a limit -/

/-- A limit that fits is kept. -/
theorem toInt_nanoseconds_of_fits {limit : Int64} (hlimit : 0 < limit) (hfits : limit.toInt * 1000000 < 2 ^ 63) :
    (nanoseconds limit).toInt = limit.toInt * 1000000 := by
  have hpos : 0 < limit.toInt := Int64.lt_iff_toInt_lt.mp hlimit
  have hmillion : (1000000 : Int64).toInt = 1000000 := rfl
  rw [nanoseconds, Int64.toInt_mul, hmillion]
  exact Int.bmod_eq_of_le (by omega) (by omega)

/-- A limit that wraps leaves room for a command that ends before the limit and after the span. -/
theorem exists_between_of_wraps {limit : Int64} (hwraps : 2 ^ 63 ≤ limit.toInt * 1000000) :
    ∃ span : Nat, 0 < span ∧ (nanoseconds limit).toInt < span ∧ (span : Int) < limit.toInt * 1000000 := by
  have hword := (nanoseconds limit).toInt_lt
  exact ⟨(limit.toInt * 1000000 - 1).toNat, by omega, by omega, by omega⟩

/-! ### Commands under limits -/

/-- Whether an outcome says that the time was over. -/
def TimesOut (outcome : Except Fault Sample) : Prop :=
  ∃ sample, outcome = .ok sample ∧ sample.status = .timeLimitExceeded

theorem not_timesOut_error (fault : Fault) : ¬ TimesOut (.error fault) := by
  rintro ⟨sample, h, -⟩
  cases h

theorem timesOut_ok_iff {sample : Sample} : TimesOut (.ok sample) ↔ sample.status = .timeLimitExceeded := by
  constructor
  · rintro ⟨_, h, hstatus⟩
    cases h
    exact hstatus
  · intro hstatus
    exact ⟨sample, rfl, hstatus⟩

namespace InProcess

theorem outcomeOf_status_ne (duration : Nat) (result : Except Kernel.Error Bytes) :
    (outcomeOf duration result).status ≠ .timeLimitExceeded := by
  cases result <;> simp [outcomeOf]

/-- A caller who does not give up waits for all strays. -/
theorem exists_start (now : Nat) (stray : List Nat) : ∃ start, waitStrays none now stray = .ok start := by
  induction stray generalizing now with
  | nil => exact ⟨now, rfl⟩
  | cons finish rest ih =>
    rw [waitStrays]
    split
    · exact ih now
    · exact ih finish

/-- A kernel is out of time exactly if it is busy for longer than the span of its limit. -/
theorem timesOut_call_iff (duration : List Bytes → Nat) (st : State) {req : RunRequest}
    {result : Except Kernel.Error Bytes} (hresult : resultFor req = .ok result) :
    TimesOut (call duration none st req).outcome ↔
      0 < req.timeLimitMs ∧ (nanoseconds req.timeLimitMs).toInt < duration req.words := by
  obtain ⟨start, hstart⟩ := exists_start st.now st.stray
  have hstop : earlier? ((none : Option Nat).map fun q => (q : Int)) (deadline? start req.timeLimitMs) =
      deadline? start req.timeLimitMs := rfl
  simp only [call, hresult, hstart, hstop]
  by_cases hlimit : 0 < req.timeLimitMs
  · simp only [deadline?, hlimit, if_true, true_and]
    split
    · next hin =>
      simp only [timesOut_ok_iff, outcomeOf_status_ne, false_iff]
      omega
    · next hout =>
      simp only [Bool.false_eq_true, if_false, timesOut_ok_iff, timedOut, true_iff]
      omega
  · simp only [deadline?, hlimit, if_false, timesOut_ok_iff, outcomeOf_status_ne, false_and]

end InProcess

namespace Direct

/-- What an executor sees alike in two lives of a process that it watches up to a horizon: the end of its wait and the
first look that shows too much memory, if they come by then. -/
structure SameUpTo (horizon : Option Nat) (t t' : Timeline) : Prop where
  wait : ∀ moment, horizon.all (moment ≤ ·) = true → (waitEnd t' = some moment ↔ waitEnd t = some moment)
  excess : ∀ limitKb moment, horizon.all (moment ≤ ·) = true →
    (t'.firstExcess limitKb = some moment ↔ t.firstExcess limitKb = some moment)

/-- Only a stop by the clock is a time limit exceeded, and only if no flag is up. -/
theorem timesOut_answer_iff (t : Timeline) (c : Course) {basis : Race.Basis} {late : Bool} {peak : UInt64} :
    TimesOut ((basis.answer late peak).map (sample t c)) ↔ basis = .stopped false ∧ late = false := by
  cases basis with
  | stopped gaveUp =>
    cases gaveUp <;> cases late <;>
      simp [Race.Basis.answer, Race.Basis.judgement, Except.map, timesOut_ok_iff, not_timesOut_error, sample]
  | ended waited early =>
    cases waited <;> cases early <;> cases late <;>
      simp [Race.Basis.answer, Race.Basis.judgement, Except.map, timesOut_ok_iff, not_timesOut_error, sample]

theorem timesOut_verdict_iff (t : Timeline) (req : RunRequest) :
    TimesOut (verdict t none req).1 ↔
      isFlagged t (deadline? req.timeLimitMs) req.memoryLimitKb = false ∧
      isBefore (deadline? req.timeLimitMs) (waitEnd t) = true := by
  have hstop : sooner none (deadline? req.timeLimitMs) = deadline? req.timeLimitMs := rfl
  obtain ⟨peak, hanswer⟩ := exists_answer_course t none req
  simp only [verdict, hanswer, basis, hstop, Option.any_none]
  generalize isFlagged t (deadline? req.timeLimitMs) req.memoryLimitKb = flagged
  split
  · next hkilled =>
    obtain ⟨rfl, -⟩ := Bool.and_eq_true_iff.mp hkilled
    simp [timesOut_answer_iff]
  · split
    · next hover => simp [timesOut_answer_iff, hover]
    · next hin =>
      split
      · simp [timesOut_answer_iff, hin]
      · simp [Except.map, not_timesOut_error, hin]

/-- No end is seen before a deadline that comes before the end. -/
theorem lt_of_waitEnd {t t' : Timeline} {deadline span closing : Nat} (hspan : waitEnd t = some span)
    (hsame : SameUpTo (some deadline) t t') (hlate : deadline < span) (hwait : waitEnd t' = some closing) :
    deadline < closing := by
  by_contra hearly
  have hend := (hsame.wait closing (decide_eq_true (Nat.not_lt.mp hearly))).mp hwait
  rw [hspan, Option.some.injEq] at hend
  omega

/-- Up to a deadline before its end, a process is seen to use too much memory exactly if it does so before the deadline. -/
theorem excess_first_iff {t t' : Timeline} {deadline span : Nat} (hspan : waitEnd t = some span)
    (hsame : SameUpTo (some deadline) t t') (hlate : deadline < span) (limitKb : Int64) :
    isFlagged t' (some deadline) limitKb = true ↔ ∃ moment < deadline, t.firstExcess limitKb = some moment := by
  rw [isFlagged]
  constructor
  · intro hfirst
    rw [Bool.and_eq_true] at hfirst
    cases hexcess : t'.firstExcess limitKb with
    | none => simp [hexcess, isBefore] at hfirst
    | some moment =>
      have hlt : moment < deadline := by simpa [hexcess, isBefore] using hfirst.1
      exact ⟨moment, hlt, (hsame.excess limitKb moment (decide_eq_true (Nat.le_of_lt hlt))).mp hexcess⟩
  · rintro ⟨moment, hlt, hexcess⟩
    rw [(hsame.excess limitKb moment (decide_eq_true (Nat.le_of_lt hlt))).mpr hexcess]
    cases hwait : waitEnd t' with
    | none => simp [isBefore, hlt]
    | some closing => simp [isBefore, hlt, Nat.lt_trans hlt (lt_of_waitEnd hspan hsame hlate hwait)]

/-- A process whose life goes on for a span is out of time exactly if that is longer than the span of its limit and it
has not used too much memory by then. -/
theorem timesOut_verdict_iff_span {t t' : Timeline} {span : Nat} (hspan : waitEnd t = some span) {req : RunRequest}
    (hsame : SameUpTo (deadline? req.timeLimitMs) t t') :
    TimesOut (verdict t' none req).1 ↔ 0 < req.timeLimitMs ∧ (nanoseconds req.timeLimitMs).toInt.toNat < span ∧
      ¬ ∃ moment < (nanoseconds req.timeLimitMs).toInt.toNat, t.firstExcess req.memoryLimitKb = some moment := by
  rw [timesOut_verdict_iff]
  by_cases hlimit : 0 < req.timeLimitMs
  · rw [deadline?, if_pos hlimit] at hsame ⊢
    generalize (nanoseconds req.timeLimitMs).toInt.toNat = deadline at hsame ⊢
    rcases Nat.lt_or_ge deadline span with hlate | hearly
    · have hover : isBefore (some deadline) (waitEnd t') = true := by
        cases hwait : waitEnd t' with
        | none => rfl
        | some closing => simp [isBefore, lt_of_waitEnd hspan hsame hlate hwait]
      rw [← excess_first_iff hspan hsame hlate, Bool.not_eq_true]
      simp [hlimit, hlate, hover]
    · have hwait := (hsame.wait span (decide_eq_true hearly)).mpr hspan
      simp [hwait, isBefore, Nat.not_lt.mpr hearly]
  · rw [deadline?, if_neg hlimit]
    simp [hlimit, isBefore]

/-- A host on which a command has a life of its own: however long a process is watched, it is seen to do the same. -/
def Lives {σ : Type} (spawn : Spawn σ) (state : σ) (req : RunRequest) (t : Timeline) : Prop :=
  ∀ horizon, ∃ t' state', spawn state ⟨req.words, req.workDir, horizon⟩ = .ok (t', state') ∧ SameUpTo horizon t t'

theorem timesOut_call_iff {σ : Type} {spawn : Spawn σ} {state : σ} {req : RunRequest} {t : Timeline} {span : Nat}
    (hwords : req.words ≠ []) (hlives : Lives spawn state req t) (hspan : waitEnd t = some span) :
    TimesOut (call spawn none state req).1 ↔
      0 < req.timeLimitMs ∧ (nanoseconds req.timeLimitMs).toInt.toNat < span ∧
      ¬ ∃ moment < (nanoseconds req.timeLimitMs).toInt.toNat, t.firstExcess req.memoryLimitKb = some moment := by
  obtain ⟨t', state', hspawn, hsame⟩ := hlives (deadline? req.timeLimitMs)
  have hhorizon : sooner none (deadline? req.timeLimitMs) = deadline? req.timeLimitMs := rfl
  rw [← timesOut_verdict_iff_span hspan hsame, call, if_neg (by simpa using hwords)]
  simp only [hhorizon, hspawn]

end Direct

/-! ### Limits and the commands that they stop -/

/-- A command, tried with all time limits by a caller who does not give up: how many nanoseconds it takes when nothing
stops it, and the outcome at each limit. -/
inductive Tried : ExecutorKind → Nat → (Int64 → Except Fault Sample) → Prop where
  | kernel (duration : List Bytes → Nat) (st : InProcess.State) (req : RunRequest) {result : Except Kernel.Error Bytes}
      (hresult : InProcess.resultFor req = .ok result) :
      Tried .inprocess (duration req.words) fun limit =>
        (InProcess.call duration none st { req with timeLimitMs := limit }).outcome
  | process {σ : Type} (spawn : Direct.Spawn σ) (state : σ) (req : RunRequest) {t : Direct.Timeline} {span : Nat}
      (hwords : req.words ≠ []) (hlives : Direct.Lives spawn state req t) (hspan : Direct.waitEnd t = some span) :
      Tried .direct span fun limit => (Direct.call spawn none state { req with timeLimitMs := limit }).1

/-- Whether a limit stops a command depends on the span of the limit alone: only a shorter one than the command takes does,
and with it every shorter one. -/
theorem Tried.exists_overruns {kind : ExecutorKind} {span : Nat} {run : Int64 → Except Fault Sample}
    (h : Tried kind span run) :
    ∃ overruns : Int → Prop, (∀ limit, TimesOut (run limit) ↔ 0 < limit ∧ overruns (nanoseconds limit).toInt) ∧
      (∀ stop, overruns stop → stop < span) ∧ ∀ stop earlier, earlier ≤ stop → overruns stop → overruns earlier := by
  cases h with
  | kernel duration st req hresult =>
    refine ⟨fun stop => stop < duration req.words, fun limit => ?_, fun stop => id, fun stop earlier hle hover => ?_⟩
    · exact @InProcess.timesOut_call_iff duration st { req with timeLimitMs := limit } _ hresult
    · exact Int.lt_of_le_of_lt hle hover
  | @process σ spawn state req t _ hwords hlives hspan =>
    refine ⟨fun stop => stop.toNat < span ∧ ¬ ∃ moment < stop.toNat, t.firstExcess req.memoryLimitKb = some moment,
      fun limit => ?_, fun stop hover => ?_, fun stop earlier hle hover => ⟨?_, ?_⟩⟩
    · exact @Direct.timesOut_call_iff σ spawn state { req with timeLimitMs := limit } t span hwords hlives hspan
    · omega
    · omega
    · rintro ⟨moment, hlt, hexcess⟩
      exact hover.2 ⟨moment, by omega, hexcess⟩

/-- For every span there is a command of each kind that takes so long and that every shorter span stops. -/
theorem exists_tried {kind : ExecutorKind} (hkind : kind = .inprocess ∨ kind = .direct) {span : Nat} (hpos : 0 < span) :
    ∃ run, Tried kind span run ∧ ∀ limit, 0 < limit → (nanoseconds limit).toInt < span → TimesOut (run limit) := by
  let req : RunRequest := { command := some [utf8 "fib", utf8 "38"] }
  have hwords : req.words ≠ [] := by decide
  rcases hkind with rfl | rfl
  · have hresult : InProcess.resultFor req = .ok (Kernel.fib [utf8 "38"]) := rfl
    refine ⟨_, .kernel (fun _ => span) {} req hresult, fun limit hlimit hlate => ?_⟩
    exact (@InProcess.timesOut_call_iff _ _ { req with timeLimitMs := limit } _ hresult).mpr ⟨hlimit, hlate⟩
  · let t : Direct.Timeline := { exit := some (span, .exited 0), closed := some span }
    have hspan : Direct.waitEnd t = some span := by simp [Direct.waitEnd, t]
    have hlives : Direct.Lives (fun (_ : Unit) _ => .ok (t, ())) () req t := fun horizon =>
      ⟨t, (), rfl, fun _ _ => Iff.rfl, fun _ _ _ => Iff.rfl⟩
    refine ⟨_, .process _ () req hwords hlives hspan, fun limit hlimit hlate => ?_⟩
    have hlate : (nanoseconds limit).toInt.toNat < span := by omega
    refine (@Direct.timesOut_call_iff _ _ _ { req with timeLimitMs := limit } _ _ hwords hlives hspan).mpr
      ⟨hlimit, hlate, ?_⟩
    rintro ⟨moment, -, hexcess⟩
    exact absurd hexcess (by simp [Direct.Timeline.firstExcess, Direct.Timeline.firstOver, Direct.looks, t])

/-- For the executor inside the harness and that of processes, with a caller who does not give up: that no command which
ends before its time limit is out of time holds of a limit exactly if its nanoseconds fit in a word with a sign. Up to
such a limit, what is within a smaller limit is within it. -/
theorem larger_limit_safe_iff (kind : ExecutorKind) (hkind : kind = .inprocess ∨ kind = .direct) (limit : Int64)
    (hlimit : 0 < limit) :
    ((∀ span run, Tried kind span run → (span : Int) < limit.toInt * 1000000 → ¬ TimesOut (run limit)) ↔
      limit.toInt * 1000000 < 2 ^ 63) ∧
    (limit.toInt * 1000000 < 2 ^ 63 → ∀ smaller : Int64, 0 < smaller → smaller ≤ limit →
      ∀ span run, Tried kind span run → ¬ TimesOut (run smaller) → ¬ TimesOut (run limit)) := by
  refine ⟨⟨fun hsafe => ?_, fun hfits span run htried hin hover => ?_⟩,
    fun hfits smaller hpos hle span run htried hwithin hover => ?_⟩
  · by_contra hwraps
    obtain ⟨span, hpos, hlate, hin⟩ := exists_between_of_wraps (Int.not_lt.mp hwraps)
    obtain ⟨run, htried, hover⟩ := exists_tried hkind hpos
    exact hsafe span run htried hin (hover limit hlimit hlate)
  · obtain ⟨overruns, htimesOut, hlate, -⟩ := htried.exists_overruns
    have hspan := hlate _ ((htimesOut limit).mp hover).2
    rw [toInt_nanoseconds_of_fits hlimit hfits] at hspan
    omega
  · obtain ⟨overruns, htimesOut, -, hshorter⟩ := htried.exists_overruns
    have hle' := Int64.le_iff_toInt_le.mp hle
    have hspans : (nanoseconds smaller).toInt ≤ (nanoseconds limit).toInt := by
      rw [toInt_nanoseconds_of_fits hlimit hfits, toInt_nanoseconds_of_fits hpos (by omega)]
      omega
    exact hwithin ((htimesOut smaller).mpr ⟨hpos, hshorter _ _ hspans ((htimesOut limit).mp hover).2⟩)

/-- The largest of all limits is a millisecond below zero in nanoseconds: a kernel of a second is out of time at once. -/
theorem larger_limit_safe_iff_fails_largest :
    let request : RunRequest := { command := some [utf8 "fib", utf8 "38"], timeLimitMs := Int64.maxValue }
    TimesOut (InProcess.call (fun _ => 1000000000) none {} request).outcome ∧
    ¬ TimesOut (InProcess.call (fun _ => 1000000000) none {} { request with timeLimitMs := 9223372036854 }).outcome ∧
    ∀ kind, kind = .inprocess ∨ kind = .direct → ¬ ∀ span run, Tried kind span run →
      (span : Int) < Int64.maxValue.toInt * 1000000 → ¬ TimesOut (run Int64.maxValue) := by
  intro request
  have hresult : InProcess.resultFor request = .ok (Kernel.fib [utf8 "38"]) := rfl
  refine ⟨(InProcess.timesOut_call_iff _ _ hresult).mpr (by decide), ?_, fun kind hkind hsafe => ?_⟩
  · obtain ⟨hiff, -⟩ := larger_limit_safe_iff .inprocess (.inl rfl) 9223372036854 (by decide)
    have hsafe := hiff.mpr (by decide) _ _ (Tried.kernel (fun _ => 1000000000) {} request hresult)
    exact hsafe (by decide)
  · exact absurd ((larger_limit_safe_iff kind hkind Int64.maxValue (by decide)).1.mp hsafe) (by decide)

end Stopwatch
