import Mathlib.Data.List.Basic
import Mathlib.Data.Option.Basic
import Stopwatch.Direct.Executor

/-!
The race along the life of a process. When everything happens at its moment, every step of the course can be taken, and
the answer rests on what came first: too much memory, the stop, or the end.
-/

namespace Stopwatch.Direct

namespace Race

variable {req : RunRequest}

@[simp] theorem run_nil (s : State) : run req s [] = some s := rfl

@[simp] theorem run_cons (s : State) (e : Event) (rest : List Event) :
    run req s (e :: rest) = (step req s e).bind fun s' => run req s' rest := List.foldlM_cons

theorem run_append (s : State) (first second : List Event) :
    run req s (first ++ second) = (run req s first).bind fun s' => run req s' second := List.foldlM_append

/-- Looks that show nothing special only raise the peak. -/
theorem run_reads {readings : List UInt64} (within : ∀ rss ∈ readings, exceeds req.memoryLimitKb rss = false) {s : State}
    (hwatching : s.monitor = .watching) :
    run req s (readings.map .read) = some { s with peak := readings.foldl higher s.peak } := by
  induction readings generalizing s with
  | nil => rfl
  | cons rss rest ih =>
    rw [List.forall_mem_cons] at within
    have hstep : step req s (.read rss) = some { s with peak := higher s.peak rss, monitor := .watching } := by
      simp [step, hwatching, within.1]
    rw [List.map_cons, run_cons, hstep, Option.bind_some, ih within.2 rfl, List.foldl_cons, hwatching]

end Race

open Race

theorem within_of_mem_readings {t : Timeline} {limitKb : Int64} {last : Option Nat} {rss : UInt64}
    (h : rss ∈ t.readings limitKb last) : exceeds limitKb rss = false := by
  simp only [Timeline.readings, List.mem_map, List.mem_filter, Bool.and_eq_true, Bool.not_eq_true'] at h
  obtain ⟨look, ⟨-, -, hwithin⟩, rfl⟩ := h
  exact hwithin

section
variable (t : Timeline) {req : RunRequest} (last : Option Nat)

theorem run_watch_calm :
    run req {} (watch t req.memoryLimitKb false last) =
      some { apart := t.apart, peak := (t.readings req.memoryLimitKb last).foldl higher 0 } := by
  have hreads : ∀ s : State, s.monitor = .watching → run req s ((t.readings req.memoryLimitKb last).map .read) =
      some { s with peak := (t.readings req.memoryLimitKb last).foldl higher s.peak } :=
    fun s => run_reads fun rss => within_of_mem_readings
  cases hapart : t.apart with
  | false => simp [watch, hapart, hreads]
  | true => simp [watch, hapart, hreads, step]

/-- A look that shows too much memory raises the flag, and kills a process that is still in its group. -/
theorem exists_run_watch_flagged {look : Nat × UInt64} (hover : t.firstOver req.memoryLimitKb = some look) :
    ∃ peak, run req {} (watch t req.memoryLimitKb true last) =
      some { process := if t.apart then none else some (.failed (-1)), apart := t.apart, monitor := .gone, flagged := true
             peak } := by
  have hexceeds : exceeds req.memoryLimitKb look.2 = true := by simpa using List.find?_some hover
  have hwatch : watch t req.memoryLimitKb true last =
      watch t req.memoryLimitKb false last ++ [.read look.2, .raise, .kill] := by simp [watch, hover]
  rw [hwatch, run_append, run_watch_calm, Option.bind_some]
  refine ⟨higher ((t.readings req.memoryLimitKb last).foldl higher 0) look.2, ?_⟩
  cases hapart : t.apart <;> simp [step, hexceeds, State.killed]

end

theorem exists_firstOver {t : Timeline} {stop : Option Nat} {limitKb : Int64} (h : isFlagged t stop limitKb = true) :
    ∃ look, t.firstOver limitKb = some look := by
  cases hover : t.firstOver limitKb with
  | none => simp [isFlagged, Timeline.firstExcess, hover, isBefore] at h
  | some look => exact ⟨look, rfl⟩

/-- The state of the race when nothing but the process and the monitor has done anything. -/
theorem exists_run_watch (t : Timeline) {req : RunRequest} {stop : Option Nat} (last : Option Nat) :
    ∃ monitor peak, run req {} (watch t req.memoryLimitKb (isFlagged t stop req.memoryLimitKb) last) =
      some { process := if isFlagged t stop req.memoryLimitKb && !t.apart then some (.failed (-1)) else none
             apart := t.apart, monitor, flagged := isFlagged t stop req.memoryLimitKb, peak } := by
  cases hflagged : isFlagged t stop req.memoryLimitKb with
  | false => exact ⟨.watching, _, run_watch_calm t last⟩
  | true =>
    obtain ⟨look, hover⟩ := exists_firstOver hflagged
    obtain ⟨peak, hrun⟩ := exists_run_watch_flagged t last hover
    refine ⟨.gone, peak, hrun.trans ?_⟩
    cases t.apart <;> rfl

namespace Race

variable {req : RunRequest} {s : State}

/-- An end that is waited for is judged and answered. -/
theorem answer_received (hstage : s.stage = .waiting) {waited : Waited} (hprocess : s.process = some waited) :
    (run req s [.receive, .judge, .answer]).bind State.answer? =
      some ((Basis.ended waited s.flagged).answer s.flagged s.peak) := by
  simp [step, hstage, hprocess, State.answer?]

/-- Once the process has ended, a stopped wait is answered; the caller may still give up before that. -/
theorem answer_stopping (hstage : s.stage = .stopping) {waited : Waited} (hprocess : s.process = some waited) {late : Bool}
    (hlater : s.gaveUp = true → late = true) :
    (run req s ((if late then [.giveUp] else []) ++ [.drain, .answer])).bind State.answer? =
      some ((Basis.stopped late).answer s.flagged s.peak) := by
  cases late with
  | true => simp [step, hstage, hprocess, State.answer?]
  | false =>
    have hgaveUp : s.gaveUp = false := by simpa using hlater
    simp [step, hstage, hprocess, hgaveUp, State.answer?]

/-- The caller or the clock stops the wait, and the group is killed. -/
theorem run_stop (hstage : s.stage = .waiting) (hgaveUp : s.gaveUp = false) {early : Bool}
    (hlimit : early = false → 0 < req.timeLimitMs) :
    ∃ expired, run req s [if early then .giveUp else .expire, .stop] =
      some { s.killed with expired, gaveUp := early, stage := .stopping } := by
  cases early with
  | true => exact ⟨s.expired, by cases hapart : s.apart <;> simp [step, hstage, State.killed, hapart]⟩
  | false => exact ⟨true, by cases hapart : s.apart <;> simp [step, hstage, hgaveUp, hlimit rfl, State.killed, hapart]⟩

/-- A wait that is stopped is answered after the end, which a kill brings about unless the process is not in its group. -/
theorem answer_stopped (hstage : s.stage = .waiting) (hprocess : s.process = none) (hgaveUp : s.gaveUp = false)
    {early late : Bool} (hlimit : early = false → 0 < req.timeLimitMs) (hlater : early = true → late = true)
    (ending : Ending) (outlives : Bool) :
    (run req s ([if early then .giveUp else .expire, .stop] ++ (if s.apart then [.exit ending outlives] else []) ++
      (if late then [.giveUp] else []) ++ [.drain, .answer])).bind State.answer? =
        some ((Basis.stopped late).answer s.flagged s.peak) := by
  obtain ⟨expired, hstop⟩ := run_stop hstage hgaveUp hlimit
  rw [List.append_assoc, List.append_assoc, run_append, hstop, Option.bind_some, State.killed]
  cases hapart : s.apart with
  | true =>
    -- The kill misses the process, so its own end comes first.
    simp only [if_true, List.singleton_append, run_cons, step, hprocess, Option.bind_some]
    exact answer_stopping rfl rfl hlater
  | false =>
    simp only [Bool.false_eq_true, if_false, List.nil_append, hprocess, Option.none_or]
    exact answer_stopping rfl rfl hlater

end Race

/-- What the answer rests on when everything happens at its moment. -/
def basis (t : Timeline) (quit : Option Nat) (req : RunRequest) : Option Basis :=
  let stop := sooner quit (deadline? req.timeLimitMs)
  let flagged := isFlagged t stop req.memoryLimitKb
  if flagged && !t.apart then some (.ended (.failed (-1)) true)
  else if isBefore stop (waitEnd t) then some (.stopped (quit.any (· ≤ (course t quit req).moment)))
  else if (waitEnd t).isSome then some (.ended (.ofEnding (ending t).1 (ending t).2) flagged)
  else none

/-- If the caller does not stop the wait, there is a time limit that does. -/
theorem timeLimit_pos_of_stop {quit : Option Nat} {limitMs : Int64} {stopped : Nat}
    (hstop : sooner quit (deadline? limitMs) = some stopped) (hquit : quit.any (· ≤ stopped) = false) : 0 < limitMs := by
  by_contra hlimit
  rw [deadline?, if_neg hlimit] at hstop
  cases quit with
  | none => cases hstop
  | some moment =>
    cases hstop
    simp at hquit

theorem le_of_isBefore {stopped : Nat} {wait : Option Nat} (h : isBefore (some stopped) wait = true) :
    stopped ≤ wait.getD stopped := by
  cases wait with
  | none => exact Nat.le_refl _
  | some moment => exact Nat.le_of_lt (by simpa [isBefore] using h)

/-- The course leads to an answer on that basis. -/
theorem exists_answer_course (t : Timeline) (quit : Option Nat) (req : RunRequest) :
    ∃ peak, (run req {} (course t quit req).events).bind State.answer? =
      (basis t quit req).map (·.answer (isFlagged t (sooner quit (deadline? req.timeLimitMs)) req.memoryLimitKb) peak) := by
  simp only [course, basis]
  generalize hstop : sooner quit (deadline? req.timeLimitMs) = stop
  obtain ⟨monitor, peak, hrun⟩ := @exists_run_watch t req stop
    (if isFlagged t stop req.memoryLimitKb then t.firstExcess req.memoryLimitKb
      else if isBefore stop (waitEnd t) then stop else waitEnd t)
  refine ⟨peak, ?_⟩
  generalize isFlagged t stop req.memoryLimitKb = flagged at hrun ⊢
  generalize watch t req.memoryLimitKb flagged _ = watched at hrun ⊢
  split
  · next hkilled =>
    rw [if_pos hkilled] at hrun
    obtain ⟨rfl, -⟩ := Bool.and_eq_true_iff.mp hkilled
    rw [run_append, hrun, Option.bind_some, answer_received rfl rfl]
    rfl
  · next hspared =>
    rw [if_neg hspared] at hrun
    split
    · next hbefore =>
      obtain ⟨stopped, rfl⟩ : ∃ stopped, stop = some stopped := by
        cases stop with
        | none => cases hbefore
        | some stopped => exact ⟨stopped, rfl⟩
      have hlater : quit.any (· ≤ stopped) = true →
          quit.any (· ≤ if t.apart then (waitEnd t).getD stopped else stopped) = true := by
        have hle := le_of_isBefore hbefore
        cases quit with
        | none => simp
        | some moment =>
          simp only [Option.any_some, decide_eq_true_eq]
          split <;> omega
      have hanswer := @answer_stopped req { apart := t.apart, monitor, flagged, peak } rfl rfl rfl _ _
        (timeLimit_pos_of_stop hstop) hlater (ending t).1 (ending t).2
      simp only [List.append_assoc, Option.getD_some, Option.map_some] at hanswer ⊢
      rw [run_append, hrun, Option.bind_some]
      exact hanswer
    · next hend =>
      rw [run_append, hrun, Option.bind_some]
      cases hwait : waitEnd t with
      | none => simp [State.answer?]
      | some moment =>
        simp [step, State.answer?]

end Stopwatch.Direct
