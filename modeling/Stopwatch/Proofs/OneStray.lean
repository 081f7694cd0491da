import Stopwatch.Proofs.Sequential
import Stopwatch.Proofs.Starts
import Stopwatch.Proofs.TimeLimits

/-!
Calls one after the other, and the strays between them. A call gives the list of strays back as it found it, or starts
its own kernel and leaves the list empty or with that kernel alone. It finds at most one stray, therefore, and to give
back what it has not waited for is to give back all.
-/

namespace Stopwatch.InProcess

/-- How a call can end, given whether its caller has given up by then, whether its kernel was started, the strays that it
found and those that it leaves. Its own kernel, as a stray, is `own`. -/
inductive CallEnd (request : RunRequest) (busy own : Nat) (cancelled started : Prop) (found left : List Nat) :
    Except Fault Sample → Prop where
  /-- There is no command, or no kernel of its name. -/
  | refused {fault : Fault} (hresult : resultFor request = .error fault) (hnot : ¬ started) (hleft : left = found) :
      CallEnd request busy own cancelled started found left (.error fault)
  /-- The caller gives up while a stray is waited for. -/
  | gaveUp {result : Except Kernel.Error Bytes} (hresult : resultFor request = .ok result) (hcancelled : cancelled)
      (hnot : ¬ started) (hfound : found ≠ []) (hleft : left = found) :
      CallEnd request busy own cancelled started found left (.error .canceled)
  /-- The kernel has come to its end. -/
  | received {result : Except Kernel.Error Bytes} (hresult : resultFor request = .ok result) (hstarted : started)
      (hleft : left = []) : CallEnd request busy own cancelled started found left (.ok (outcomeOf busy result))
  /-- The caller gives up while the kernel runs. -/
  | abandoned {result : Except Kernel.Error Bytes} (hresult : resultFor request = .ok result) (hcancelled : cancelled)
      (hstarted : started) (hleft : left = [own]) :
      CallEnd request busy own cancelled started found left (.error .canceled)
  /-- The time is over while the kernel runs. -/
  | overran {result : Except Kernel.Error Bytes} (hresult : resultFor request = .ok result) (hpatient : ¬ cancelled)
      (hlimit : 0 < request.timeLimitMs) (hstarted : started) (hleft : left = [own]) :
      CallEnd request busy own cancelled started found left (.ok (timedOut request.timeLimitMs))

namespace CallEnd

variable {request : RunRequest} {busy own : Nat} {cancelled started : Prop} {found left : List Nat}
  {outcome : Except Fault Sample}

theorem length_le_one (h : CallEnd request busy own cancelled started found left outcome) (hfound : found.length ≤ 1) :
    left.length ≤ 1 := by
  cases h <;> simp_all

/-- Only a call whose time is over says so. -/
theorem of_timeLimitExceeded {sample : Sample}
    (h : CallEnd request busy own cancelled started found left (.ok sample)) (hstatus : sample.status = .timeLimitExceeded) :
    0 < request.timeLimitMs ∧ ¬ cancelled ∧ started ∧ left = [own] ∧ sample = timedOut request.timeLimitMs := by
  cases h with
  | received hresult hstarted hleft => exact absurd hstatus (outcomeOf_status_ne _ _)
  | overran hresult hpatient hlimit hstarted hleft => exact ⟨hlimit, hpatient, hstarted, hleft, rfl⟩

end CallEnd

namespace Shared

variable {busy : Nat → Nat} {s t u : Shared}

/-! ### One call at a time -/

/-- The executors that a call goes through, from the one that it finds up to its return. Meanwhile no other call moves;
kernels go on and callers give up at any time. -/
inductive Underway (busy : Nat → Nat) (i : Nat) (s : Shared) : Shared → Prop where
  | arrived : Underway busy i s s
  | move {t u : Shared} {c : Call} {m : Move} (ht : Underway busy i s t) (hc : t.calls[i]? = some c)
      (hgoing : c.stage.isReturned = false) (haside : m.isAside i = true) (hstep : t.step busy m = some u) :
      Underway busy i s u

/-- The executors in a session of calls that come one after the other: a new one, one after a whole call, one between
calls after a kernel has gone on or a caller has given up. -/
inductive Session (busy : Nat → Nat) (requests : List RunRequest) : Shared → Prop where
  | fresh : Session busy requests (ofRequests requests)
  | call {s t : Shared} {i : Nat} {c d : Call} {outcome : Except Fault Sample} (hs : Session busy requests s)
      (hc : s.calls[i]? = some c) (harriving : c.stage = .arriving) (ht : Underway busy i s t)
      (hd : t.calls[i]? = some d) (hreturned : d.stage = .returned outcome) : Session busy requests t
  | between {s t : Shared} {k : Nat} {turn : Turn} (hs : Session busy requests s)
      (hturn : turn = .cancel ∨ turn = .kernel) (hstep : s.step busy ⟨k, turn⟩ = some t) : Session busy requests t

theorem Underway.reaches {i : Nat} (h : Underway busy i s t) : Reaches busy s t := by
  induction h with
  | arrived => exact .refl busy s
  | move _ _ _ _ hstep ih => exact ih.trans (.head hstep (.refl busy _))

theorem Session.reaches {requests : List RunRequest} (h : Session busy requests s) :
    Reaches busy (ofRequests requests) s := by
  induction h with
  | fresh => exact .refl busy _
  | call _ _ _ ht _ _ ih => exact ih.trans ht.reaches
  | between _ _ hstep ih => exact ih.trans (.head hstep (.refl busy _))

/-! ### Time that is over -/

/-- Only a call with a time limit can run out of time. -/
def Limited (s : Shared) : Prop :=
  ∀ (k : Nat) (c : Call), s.calls[k]? = some c → c.expired = true → 0 < c.request.timeLimitMs

theorem limited_ofRequests (requests : List RunRequest) : Limited (ofRequests requests) := by
  intro k c hc hexpired
  simp only [ofRequests, List.getElem?_map, Option.map_eq_some_iff] at hc
  obtain ⟨request, -, rfl⟩ := hc
  exact absurd hexpired Bool.false_ne_true

theorem Limited.step {m : Move} (hs : Limited s) (hstep : s.step busy m = some t) : Limited t := by
  obtain ⟨number, turn⟩ := m
  obtain ⟨c, c', stray, hc, hmoves, rfl⟩ := step_eq_some hstep
  intro k d hd hexpired
  rcases calls_put_eq_some hc hd with ⟨rfl, rfl⟩ | ⟨-, hd⟩
  · have hbefore := hs number c hc
    cases hmoves <;> simp_all
  · exact hs k d hd hexpired

theorem Reaches.limited (hs : Limited s) (h : Reaches busy s t) : Limited t := by
  obtain ⟨schedule, hsteps⟩ := h
  exact steps_induction (fun _ _ _ hs ht => hs.step ht) schedule s t hs hsteps

/-! ### What one call does -/

/-- Where a call stands that found some strays, and what the shared list holds meanwhile. -/
def Stands (busy i : Nat) (found stray : List Nat) (c : Call) : Prop :=
  match c.stage with
  | .arriving => c.kernel = .absent ∧ stray = found
  | .waiting pending => (∃ result, resultFor c.request = .ok result) ∧ c.kernel = .absent ∧ stray = [] ∧ pending <:+ found
  | .watching => (∃ result, resultFor c.request = .ok result) ∧ c.kernel ≠ .absent ∧ stray = []
  | .leaving =>
    (∃ result, resultFor c.request = .ok result) ∧ c.kernel ≠ .absent ∧ stray = [i] ∧ (c.cancelled || c.expired) = true
  | .returned outcome => CallEnd c.request busy i (c.cancelled = true) (c.kernel ≠ .absent) found stray outcome

/-- A list of at most one element has no ends but itself and the empty one. -/
theorem eq_of_suffix_of_length_le_one {first : Nat} {rest found : List Nat} (h : first :: rest <:+ found)
    (hfound : found.length ≤ 1) : first :: rest = found :=
  h.eq_of_length_le (Nat.le_trans hfound (Nat.le_add_left 1 _))

/-- A call that stays at its stage stands as before, unless its kernel is started or the reason to leave is gone. -/
theorem Stands.of_same_stage {b i : Nat} {found stray : List Nat} {c c' : Call} (h : Stands b i found stray c)
    (hgoing : c.stage.isReturned = false) (hstage : c'.stage = c.stage) (hrequest : c'.request = c.request)
    (hkernel : c'.kernel = .absent ↔ c.kernel = .absent)
    (hover : (c.cancelled || c.expired) = true → (c'.cancelled || c'.expired) = true) : Stands b i found stray c' := by
  cases hc : c.stage with
  | returned outcome => simp [hc, CallStage.isReturned] at hgoing
  | _ => simp_all [Stands]

theorem Stands.move {b i : Nat} {isFinished : Nat → Bool} {found stray stray' : List Nat} {c c' : Call} {turn : Turn}
    (h : Stands b i found stray c) (hmoves : c.Moves i b isFinished stray turn c' stray') (hfound : found.length ≤ 1)
    (hlimited : c.expired = true → 0 < c.request.timeLimitMs) (hgoing : c.stage.isReturned = false) :
    Stands b i found stray' c' := by
  cases hmoves with
  | refuse hstage hresult =>
    simp only [Stands, hstage] at h ⊢
    exact .refused hresult (by simp [h.1]) h.2
  | takeOver hstage hresult =>
    simp only [Stands, hstage] at h ⊢
    obtain ⟨habsent, rfl⟩ := h
    exact ⟨⟨_, hresult⟩, habsent, trivial, List.suffix_refl _⟩
  | start hstage =>
    simp only [Stands, hstage] at h ⊢
    exact ⟨h.1, by simp, h.2.2.1⟩
  | pass hstage hfinished =>
    simp only [Stands, hstage] at h ⊢
    obtain ⟨hresult, habsent, hstray, hpending⟩ := h
    exact ⟨hresult, habsent, hstray, (List.suffix_cons _ _).trans hpending⟩
  | receive hstage hdelivered =>
    simp only [Stands, hstage] at h ⊢
    obtain ⟨⟨result, hresult⟩, hkernel, hstray⟩ := h
    rw [hresult]
    exact .received hresult hkernel hstray
  | leave hstage =>
    simp only [Stands, hstage] at h ⊢
    obtain ⟨⟨result, hresult⟩, hkernel, hstray, hover⟩ := h
    cases hcancelled : c.cancelled with
    | true => exact .abandoned hresult rfl hkernel hstray
    | false =>
      rw [hcancelled, Bool.false_or] at hover
      exact .overran hresult Bool.false_ne_true (hlimited hover) hkernel hstray
  | restore hstage hcancelled =>
    simp only [Stands, hstage] at h ⊢
    obtain ⟨⟨result, hresult⟩, habsent, rfl, hpending⟩ := h
    have hall := eq_of_suffix_of_length_le_one hpending hfound
    exact .gaveUp hresult hcancelled (by simp [habsent]) (by simp [← hall]) (by simp [hall])
  | abandon hstage hover =>
    simp only [Stands, hstage] at h ⊢
    obtain ⟨hresult, hkernel, rfl⟩ := h
    exact ⟨hresult, hkernel, rfl, hover⟩
  | cancel => exact h.of_same_stage hgoing rfl rfl Iff.rfl (by simp)
  | expire hstage hlimit => exact h.of_same_stage hgoing rfl rfl Iff.rfl (by simp)
  | deliver hkernel => exact h.of_same_stage hgoing rfl rfl (by simp [hkernel]) id
  | finish hkernel => exact h.of_same_stage hgoing rfl rfl (by simp [hkernel]) id

/-- A move aside of a call leaves the call and the shared list alone, unless the call makes it. -/
theorem Stands.step {i : Nat} {found : List Nat} {c : Call} {m : Move} (h : Stands (busy i) i found s.stray c)
    (hc : s.calls[i]? = some c) (hfound : found.length ≤ 1) (hlimited : Limited s)
    (hgoing : c.stage.isReturned = false) (haside : m.isAside i = true) (hstep : s.step busy m = some t) :
    ∃ d, t.calls[i]? = some d ∧ d.request = c.request ∧ Stands (busy i) i found t.stray d := by
  obtain ⟨number, turn⟩ := m
  obtain ⟨e, e', stray, he, hmoves, rfl⟩ := step_eq_some hstep
  by_cases hnumber : number = i
  · subst hnumber
    obtain rfl : e = c := Option.some.inj (he.symm.trans hc)
    refine ⟨e', calls_put_self he e' stray, ?_, h.move hmoves hfound (hlimited number e he) hgoing⟩
    cases hmoves <;> rfl
  · refine ⟨c, by rw [put, List.getElem?_set_ne hnumber, hc], rfl, ?_⟩
    have hstray : stray = s.stray := by
      cases hmoves <;> simp_all [Move.isAside]
    rw [put, hstray]
    exact h

/-- The whole course of a call, by induction on its moves. -/
theorem Underway.stands {i : Nat} {c : Call} (h : Underway busy i s t) (hc : s.calls[i]? = some c)
    (harriving : c.stage = .arriving) (habsent : c.kernel = .absent) (hone : s.stray.length ≤ 1) (hlimited : Limited s) :
    ∃ d, t.calls[i]? = some d ∧ d.request = c.request ∧ Stands (busy i) i s.stray t.stray d := by
  induction h with
  | arrived =>
    refine ⟨c, hc, rfl, ?_⟩
    simp only [Stands, harriving]
    exact ⟨habsent, trivial⟩
  | move ht hd hgoing haside hstep ih =>
    obtain ⟨d, hd', hrequest, hstands⟩ := ih
    obtain rfl := Option.some.inj (hd'.symm.trans hd)
    obtain ⟨e, he, hrequest', hends⟩ := hstands.step hd hone (ht.reaches.limited hlimited) hgoing haside hstep
    exact ⟨e, he, hrequest'.trans hrequest, hends⟩

/-! ### Sessions -/

theorem Session.limited {requests : List RunRequest} (h : Session busy requests s) : Limited s :=
  h.reaches.limited (limited_ofRequests requests)

theorem Session.conserved {requests : List RunRequest} (h : Session busy requests s) : Conserved s :=
  (conserved_ofRequests requests).reaches h.reaches

/-- How a call of a session ends, if there was at most one stray before it. -/
theorem Session.callEnd {requests : List RunRequest} {i : Nat} {c d : Call} {outcome : Except Fault Sample}
    (hs : Session busy requests s) (hone : s.stray.length ≤ 1) (hc : s.calls[i]? = some c)
    (harriving : c.stage = .arriving) (ht : Underway busy i s t) (hd : t.calls[i]? = some d)
    (hreturned : d.stage = .returned outcome) :
    CallEnd c.request (busy i) i (d.cancelled = true) (d.kernel ≠ .absent) s.stray t.stray outcome := by
  have habsent := hs.conserved.early i c hc (by simp [harriving]) (by rw [harriving]; rfl)
  obtain ⟨e, he, hrequest, hstands⟩ := ht.stands hc harriving habsent hone hs.limited
  obtain rfl := Option.some.inj (he.symm.trans hd)
  simp only [Stands, hreturned] at hstands
  rwa [hrequest] at hstands

/-- Between calls there is at most one stray. -/
theorem Session.length_stray_le_one {requests : List RunRequest} (h : Session busy requests s) : s.stray.length ≤ 1 := by
  induction h with
  | fresh => exact Nat.zero_le 1
  | call hs hc harriving ht hd hreturned ih =>
    exact (hs.callEnd ih hc harriving ht hd hreturned).length_le_one ih
  | between hs hturn hstep ih =>
    obtain ⟨e, e', stray, he, hmoves, rfl⟩ := step_eq_some hstep
    cases hmoves <;> simp_all [put]

end Shared

/-! ### By the clock -/

/-- The executors by the clock in a session: a new one, one after a call, one after some time without calls. How long a
command keeps its kernel busy may differ from call to call. -/
inductive Clocked : State → Prop where
  | fresh (now : Nat) : Clocked { now }
  | call {st : State} (hst : Clocked st) (duration : List Bytes → Nat) (quit : Option Nat) (req : RunRequest) :
      Clocked (call duration quit st req).state
  | later {st : State} {now : Nat} (hst : Clocked st) (hnow : st.now ≤ now) : Clocked { st with now }

/-- A caller who gives up on a single stray gives it back. -/
theorem waitStrays_eq_error {quit : Option Nat} {now : Nat} {stray : List Nat} {given : Nat × List Nat}
    (hone : stray.length ≤ 1) (h : waitStrays quit now stray = .error given) :
    quit.any (· ≤ given.1) = true ∧ stray ≠ [] ∧ given.2 = stray := by
  match stray, hone with
  | [], _ => simp [waitStrays] at h
  | [finish], _ =>
    simp only [waitStrays] at h
    split at h
    · cases h
    · cases quit with
      | none => cases h
      | some q =>
        simp only at h
        split at h
        · obtain rfl := Except.error.inj h
          exact ⟨by simp only [Option.any_some, Nat.le_max_right, decide_true], by simp, rfl⟩
        · cases h

/-- How a call by the clock ends, if there was at most one stray before it. -/
theorem exists_callEnd (duration : List Bytes → Nat) (quit : Option Nat) {st : State} (hone : st.stray.length ≤ 1)
    (req : RunRequest) :
    ∃ (start : Nat) (started : Prop), CallEnd req (duration req.words) (start + duration req.words)
      (quit.any (· ≤ (call duration quit st req).state.now) = true) started st.stray
      (call duration quit st req).state.stray (call duration quit st req).outcome := by
  cases hresult : resultFor req with
  | error fault =>
    refine ⟨0, False, ?_⟩
    simp only [call, hresult]
    exact .refused hresult not_false rfl
  | ok result =>
    cases hwait : waitStrays quit st.now st.stray with
    | error given =>
      obtain ⟨hquit, hfound, hkept⟩ := waitStrays_eq_error hone hwait
      refine ⟨0, False, ?_⟩
      simp only [call, hresult, hwait]
      exact .gaveUp hresult hquit not_false hfound hkept
    | ok start =>
      refine ⟨start, True, ?_⟩
      rcases Shared.call_started hresult hwait with ⟨houtcome, hnone⟩ | ⟨hone, ⟨hquit, houtcome⟩ | ⟨hquit, hlimit, houtcome⟩⟩
      · rw [houtcome]
        exact .received hresult trivial hnone
      · rw [houtcome]
        exact .abandoned hresult hquit trivial hone
      · rw [houtcome]
        exact .overran hresult (by simp [hquit]) hlimit trivial hone

theorem Clocked.length_stray_le_one {st : State} (h : Clocked st) : st.stray.length ≤ 1 := by
  induction h with
  | fresh now => exact Nat.zero_le 1
  | call hst duration quit req ih =>
    obtain ⟨start, started, hend⟩ := exists_callEnd duration quit ih req
    exact hend.length_le_one ih
  | later hst hnow ih => exact ih

/-- Calls one after the other, with any commands, limits, callers who give up and kernels that finish at any time: after
every call there is at most one stray, and how the call has ended says which. A call ends with its time over only if it
has a limit and its caller has not given up, and then it shows the limit as its time, no output and no exit code. The
same holds by the clock. -/
theorem session_strays :
    (∀ (busy : Nat → Nat) (requests : List RunRequest) (s t : Shared) (i : Nat) (c d : Call)
        (outcome : Except Fault Sample), Shared.Session busy requests s → s.calls[i]? = some c → c.stage = .arriving →
      Shared.Underway busy i s t → t.calls[i]? = some d → d.stage = .returned outcome →
      t.stray.length ≤ 1 ∧
        CallEnd c.request (busy i) i (d.cancelled = true) (d.kernel ≠ .absent) s.stray t.stray outcome) ∧
    (∀ (st : State) (duration : List Bytes → Nat) (quit : Option Nat) (req : RunRequest), Clocked st →
      (call duration quit st req).state.stray.length ≤ 1 ∧
      ∃ (start : Nat) (started : Prop), CallEnd req (duration req.words) (start + duration req.words)
        (quit.any (· ≤ (call duration quit st req).state.now) = true) started st.stray
        (call duration quit st req).state.stray (call duration quit st req).outcome) ∧
    ∀ (request : RunRequest) (busy own : Nat) (cancelled started : Prop) (found left : List Nat) (sample : Sample),
      CallEnd request busy own cancelled started found left (.ok sample) → sample.status = .timeLimitExceeded →
      0 < request.timeLimitMs ∧ ¬ cancelled ∧ started ∧ left = [own] ∧
        sample.timeMs = request.timeLimitMs.toFloat ∧ sample.exitCode = -1 ∧ sample.stdout = [] ∧ sample.stderr = [] := by
  refine ⟨?_, ?_, ?_⟩
  · intro busy requests s t i c d outcome hs hc harriving ht hd hreturned
    exact ⟨(hs.call hc harriving ht hd hreturned).length_stray_le_one,
      hs.callEnd hs.length_stray_le_one hc harriving ht hd hreturned⟩
  · intro st duration quit req hst
    exact ⟨(hst.call duration quit req).length_stray_le_one, exists_callEnd duration quit hst.length_stray_le_one req⟩
  · intro request busy own cancelled started found left sample hend hstatus
    obtain ⟨hlimit, hpatient, hstarted, hleft, rfl⟩ := hend.of_timeLimitExceeded hstatus
    exact ⟨hlimit, hpatient, hstarted, hleft, rfl, rfl, rfl, rfl⟩

/-- A first call runs out of time; the caller of a second gives up while it waits for the kernel left behind. -/
theorem session_strays_given_back :
    let request : RunRequest := { command := some [utf8 "fib", utf8 "40"], timeLimitMs := 1 }
    ∃ (s t : Shared) (d : Call), Shared.Session (fun _ => 0) [request, request] s ∧ s.stray = [0] ∧
      Shared.Underway (fun _ => 0) 1 s t ∧ t.calls[1]? = some d ∧ d.stage = .returned (.error .canceled) ∧
      d.kernel = .absent ∧ t.stray = [0] := by
  intro request
  let left : Call :=
    { request, stage := .returned (.ok (timedOut 1)), kernel := .running, expired := true }
  let first : Shared := { calls := [left, { request }], stray := [0] }
  have hfirst : Shared.Underway (fun _ => 0) 0 (Shared.ofRequests [request, request]) first :=
    .move (m := ⟨0, .proceed⟩) (.move (m := ⟨0, .giveUp⟩) (.move (m := ⟨0, .expire⟩) (.move (m := ⟨0, .proceed⟩)
      (.move (m := ⟨0, .proceed⟩) .arrived rfl rfl rfl rfl) rfl rfl rfl rfl) rfl rfl rfl rfl) rfl rfl rfl rfl)
      rfl rfl rfl rfl
  have hsession : Shared.Session (fun _ => 0) [request, request] first := Shared.Session.fresh.call rfl rfl hfirst rfl rfl
  let given : Call := { request, stage := .returned (.error .canceled), cancelled := true }
  have hsecond : Shared.Underway (fun _ => 0) 1 first { calls := [left, given], stray := [0] } :=
    .move (m := ⟨1, .giveUp⟩) (.move (m := ⟨1, .cancel⟩)
      (.move (m := ⟨1, .proceed⟩) .arrived rfl rfl rfl rfl) rfl rfl rfl rfl) rfl rfl rfl rfl
  obtain ⟨-, hend⟩ := session_strays.1 _ _ _ _ 1 _ given _ hsession rfl rfl hsecond rfl rfl
  refine ⟨first, _, given, hsession, rfl, hsecond, rfl, rfl, rfl, ?_⟩
  cases hend with
  | refused hresult hnot hleft => exact hleft
  | gaveUp hresult hcancelled hnot hfound hleft => exact hleft
  | abandoned hresult hcancelled hstarted hleft => exact absurd rfl hstarted

end Stopwatch.InProcess
