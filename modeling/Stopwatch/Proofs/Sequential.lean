import Stopwatch.Proofs.Strays

/-!
Calls one after the other. A call by the clock knows when each stray finishes; among the interleavings there is one that
lets the strays finish in that order and comes to the same outcome, with the same strays left behind. What holds in every
interleaving therefore holds of every session of calls.
-/

namespace Stopwatch.InProcess

namespace Shared

variable {busy : Nat → Nat} {s t u : Shared}

/-! ### Lists of moves, put together -/

/-- Whether some list of moves leads from one executor to the other. -/
def Reaches (busy : Nat → Nat) (s t : Shared) : Prop := ∃ schedule, s.steps busy schedule = some t

theorem Reaches.refl (busy : Nat → Nat) (s : Shared) : Reaches busy s s := ⟨[], rfl⟩

theorem Reaches.head {m : Move} (hstep : s.step busy m = some t) (h : Reaches busy t u) : Reaches busy s u := by
  obtain ⟨schedule, hsteps⟩ := h
  exact ⟨m :: schedule, by rw [steps, hstep]; exact hsteps⟩

theorem Reaches.trans (h : Reaches busy s t) (h' : Reaches busy t u) : Reaches busy s u := by
  obtain ⟨schedule, hsteps⟩ := h
  induction schedule generalizing s with
  | nil => exact Option.some.inj hsteps ▸ h'
  | cons m rest ih =>
    rw [steps, Option.bind_eq_some_iff] at hsteps
    obtain ⟨v, hv, hrest⟩ := hsteps
    exact .head hv (ih hrest)

theorem Conserved.reaches (hs : Conserved s) (h : Reaches busy s t) : Conserved t := by
  obtain ⟨schedule, hsteps⟩ := h
  exact steps_induction (fun _ _ _ hs ht => hs.step ht) schedule s t hs hsteps

/-- One turn of a call. -/
theorem reaches_put {i : Nat} {c c' : Call} {stray : List Nat} (turn : Turn) (hc : s.calls[i]? = some c)
    (htake : c.take i (busy i) s.isFinished s.stray turn = some (c', stray)) : Reaches busy s (s.put i c' stray) := by
  refine .head (m := ⟨i, turn⟩) ?_ (.refl busy _)
  simp only [step, hc, htake, Option.map_some, put]

theorem put_put (i : Nat) (c c' : Call) (stray stray' : List Nat) :
    (s.put i c stray).put i c' stray' = s.put i c' stray' := by
  simp only [put, List.set_set]

/-- A further turn of the same call. -/
theorem Reaches.put {i : Nat} {c c₁ c' : Call} {stray stray' : List Nat} (h : Reaches busy s (s.put i c₁ stray))
    (turn : Turn) (hc : s.calls[i]? = some c)
    (htake : c₁.take i (busy i) (s.put i c₁ stray).isFinished stray turn = some (c', stray')) :
    Reaches busy s (s.put i c' stray') := by
  have hnext : Reaches busy (s.put i c₁ stray) ((s.put i c₁ stray).put i c' stray') :=
    reaches_put turn (calls_put_self hc c₁ stray) htake
  rw [put_put] at hnext
  exact h.trans hnext

/-- A kernel that has started can always run to its end. -/
theorem reaches_finished {k : Nat} {c : Call} (hc : s.calls[k]? = some c) (hkernel : c.kernel ≠ .absent) :
    Reaches busy s (s.put k { c with kernel := .finished } s.stray) := by
  obtain ⟨request, stage, kernel, cancelled, expired⟩ := c
  cases kernel with
  | absent => exact absurd rfl hkernel
  | running =>
    have hdeliver : Reaches busy s (s.put k ⟨request, stage, .delivered, cancelled, expired⟩ s.stray) :=
      reaches_put .kernel hc rfl
    exact hdeliver.put .kernel hc rfl
  | delivered => exact reaches_put .kernel hc rfl
  | finished =>
    obtain ⟨hlt, hget⟩ := List.getElem?_eq_some_iff.mp hc
    refine ⟨[], ?_⟩
    simp only [steps, Shared.put, ← hget, List.set_getElem_self]

/-! ### Waiting by the clock -/

/-- Calls other than one that are where they were, except that kernels have gone on. -/
def Aside (i : Nat) (s t : Shared) : Prop :=
  ∀ j d, j ≠ i → s.calls[j]? = some d → ∃ kernel, t.calls[j]? = some { d with kernel }

theorem Aside.trans {i : Nat} (h : Aside i s t) (h' : Aside i t u) : Aside i s u := by
  intro j d hj hd
  obtain ⟨kernel, hd⟩ := h j d hj hd
  obtain ⟨kernel', hd'⟩ := h' j _ hj hd
  exact ⟨kernel', hd'⟩

theorem aside_put (s : Shared) (i : Nat) (c : Call) (stray : List Nat) : Aside i s (s.put i c stray) := by
  intro j d hj hd
  exact ⟨d.kernel, by rw [put, List.getElem?_set_ne (Ne.symm hj), hd]⟩

/-- A stray can run to its end while a call waits for it. -/
theorem exists_finished {i k : Nat} {c : Call} (hs : Conserved s) (hk : k ∈ s.held) (hc : s.calls[i]? = some c)
    (hpast : c.stage.past = false) :
    ∃ t, Reaches busy s t ∧ Aside i s t ∧ t.stray = s.stray ∧ t.calls[i]? = some c ∧ t.isFinished k = true := by
  obtain ⟨d, hd, hover, hkernel⟩ := hs.behind k hk
  have hki : k ≠ i := by
    rintro rfl
    rw [Option.some.inj (hd.symm.trans hc), hpast] at hover
    exact Bool.false_ne_true hover
  refine ⟨s.put k { d with kernel := .finished } s.stray, reaches_finished hd hkernel, fun j e _ he => ?_, rfl, ?_, ?_⟩
  · by_cases hkj : k = j
    · subst hkj
      obtain rfl : d = e := Option.some.inj (hd.symm.trans he)
      exact ⟨.finished, calls_put_self hd _ _⟩
    · exact ⟨e.kernel, by rw [put, List.getElem?_set_ne hkj, he]⟩
  · rw [put, List.getElem?_set_ne hki, hc]
  · exact (isFinished_eq_true_iff (calls_put_self hd _ _)).mpr rfl

/-- The first stray is waited for, or the caller gives up on all. -/
theorem waitStrays_cons (quit : Option Nat) (now finish : Nat) (rest : List Nat) :
    (∃ later, waitStrays quit now (finish :: rest) = waitStrays quit later rest) ∨
    (∃ moment, waitStrays quit now (finish :: rest) = .error (moment, finish :: rest)) := by
  simp only [waitStrays]
  split
  · exact Or.inl ⟨now, rfl⟩
  · cases quit with
    | none => exact Or.inl ⟨finish, rfl⟩
    | some q =>
      simp only
      split
      · exact Or.inr ⟨max now q, rfl⟩
      · exact Or.inl ⟨finish, rfl⟩

/-- What waiting by the clock comes to, as the strays that are left. -/
def Leaves (finish : Nat → Nat) (left : List Nat) : Except (Nat × List Nat) Nat → Prop
  | .ok _ => left = []
  | .error (_, kept) => left ≠ [] ∧ left.map finish = kept

/-- A call that waits can come as far as it comes by the clock. -/
theorem reaches_waited {i : Nat} (finish : Nat → Nat) (quit : Option Nat) (request : RunRequest) :
    ∀ (pending : List Nat) (now : Nat) (s : Shared), Conserved s →
    s.calls[i]? = some { request, stage := .waiting pending } →
    ∃ t left, Reaches busy s t ∧ Aside i s t ∧ t.stray = s.stray ∧
      t.calls[i]? = some { request, stage := .waiting left } ∧
      Leaves finish left (waitStrays quit now (pending.map finish))
  | [], now, s, _, hc => ⟨s, [], .refl busy s, fun _ d _ hd => ⟨d.kernel, hd⟩, rfl, hc, rfl⟩
  | k :: rest, now, s, hs, hc => by
    rw [List.map_cons]
    rcases waitStrays_cons quit now (finish k) (rest.map finish) with ⟨later, hlater⟩ | ⟨moment, hgiveUp⟩
    · have hheld : k ∈ s.held :=
        List.mem_append_right _ (List.mem_flatMap.mpr ⟨_, List.mem_of_getElem? hc, List.mem_cons_self⟩)
      -- the stray finishes, and the call goes on to the next
      obtain ⟨u, hfinish, haside, hstray, hcall, hends⟩ := exists_finished hs hheld hc rfl
      have hpass : Reaches busy u (u.put i { request, stage := .waiting rest } u.stray) :=
        reaches_put .proceed hcall (by simp only [Call.take, Call.proceed, hends, if_true])
      have hnext := hfinish.trans hpass
      obtain ⟨t, left, ht, htaside, htstray, htcall, hleft⟩ :=
        reaches_waited finish quit request rest later _ (hs.reaches hnext) (calls_put_self hcall _ _)
      refine ⟨t, left, hnext.trans ht, (haside.trans (aside_put u i _ _)).trans htaside, ?_, htcall, ?_⟩
      · exact htstray.trans hstray
      · rw [hlater]
        exact hleft
    · refine ⟨s, k :: rest, .refl busy s, fun _ d _ hd => ⟨d.kernel, hd⟩, rfl, hc, ?_⟩
      rw [hgiveUp]
      exact ⟨List.cons_ne_nil k rest, rfl⟩

/-! ### One call -/

/-- A call that starts its kernel returns with the result and leaves nothing behind, or leaves its kernel behind because
its caller has given up by then or, if not so, its time is over. -/
theorem call_started {duration : List Bytes → Nat} {quit : Option Nat} {st : State} {req : RunRequest}
    {result : Except Kernel.Error Bytes} {start : Nat} (hresult : resultFor req = .ok result)
    (hwait : waitStrays quit st.now st.stray = .ok start) :
    ((call duration quit st req).outcome = .ok (outcomeOf (duration req.words) result) ∧
      (call duration quit st req).state.stray = []) ∨
    ((call duration quit st req).state.stray = [start + duration req.words] ∧
      ((quit.any (· ≤ (call duration quit st req).state.now) = true ∧
          (call duration quit st req).outcome = .error .canceled) ∨
        (quit.any (· ≤ (call duration quit st req).state.now) = false ∧ 0 < req.timeLimitMs ∧
          (call duration quit st req).outcome = .ok (timedOut req.timeLimitMs)))) := by
  simp only [call, hresult, hwait]
  cases hstop : earlier? (quit.map fun q => (q : Int)) (deadline? start req.timeLimitMs) with
  | none => exact Or.inl ⟨rfl, rfl⟩
  | some moment =>
    simp only
    split
    · exact Or.inl ⟨rfl, rfl⟩
    · refine Or.inr ⟨rfl, ?_⟩
      cases quit with
      | none =>
        refine Or.inr ⟨rfl, ?_, rfl⟩
        by_contra hlimit
        simp [deadline?, hlimit, earlier?] at hstop
      | some q =>
        by_cases hq : q ≤ max start moment.toNat
        · exact Or.inl (by simp only [Option.any_some, hq, decide_true, if_true, and_self])
        · refine Or.inr ⟨by simp only [Option.any_some, hq, decide_false], ?_,
            by simp only [hq, decide_false, Bool.false_eq_true, if_false]⟩
          -- without a limit, the moment would be that at which the caller gives up
          by_contra hlimit
          rw [deadline?, if_neg hlimit] at hstop
          obtain rfl : (q : Int) = moment := Option.some.inj hstop
          exact hq (Nat.le_max_right start q)

theorem reaches_started {i : Nat} {request : RunRequest} (hc : s.calls[i]? = some { request, stage := .waiting [] }) :
    Reaches busy s (s.put i { request, stage := .watching, kernel := .running } s.stray) :=
  reaches_put .proceed hc rfl

/-- Where a call comes that starts its kernel and waits for it. -/
theorem reaches_received {i : Nat} {request : RunRequest} (hc : s.calls[i]? = some { request, stage := .waiting [] }) :
    Reaches busy s (s.put i
      { request, stage := .returned ((resultFor request).map (outcomeOf (busy i))), kernel := .finished } s.stray) := by
  have hdeliver : Reaches busy s (s.put i { request, stage := .watching, kernel := .delivered } s.stray) :=
    (reaches_started hc).put .kernel hc rfl
  have hfinish : Reaches busy s (s.put i { request, stage := .watching, kernel := .finished } s.stray) :=
    hdeliver.put .kernel hc rfl
  exact hfinish.put .proceed hc rfl

/-- Where a call comes whose caller gives up on its kernel. -/
theorem reaches_canceled {i : Nat} {request : RunRequest} (hc : s.calls[i]? = some { request, stage := .waiting [] }) :
    Reaches busy s (s.put i
      { request, stage := .returned (.error .canceled), kernel := .running, cancelled := true } (s.stray ++ [i])) := by
  have hcancel : Reaches busy s
      (s.put i { request, stage := .watching, kernel := .running, cancelled := true } s.stray) :=
    (reaches_started hc).put .cancel hc rfl
  have hleave : Reaches busy s
      (s.put i { request, stage := .leaving, kernel := .running, cancelled := true } (s.stray ++ [i])) :=
    hcancel.put .giveUp hc rfl
  exact hleave.put .proceed hc rfl

/-- Where a call comes whose time is over. -/
theorem reaches_timedOut {i : Nat} {request : RunRequest} (hc : s.calls[i]? = some { request, stage := .waiting [] })
    (hlimit : 0 < request.timeLimitMs) :
    Reaches busy s (s.put i
      { request, stage := .returned (.ok (timedOut request.timeLimitMs)), kernel := .running, expired := true }
      (s.stray ++ [i])) := by
  have hexpire : Reaches busy s
      (s.put i { request, stage := .watching, kernel := .running, expired := true } s.stray) :=
    (reaches_started hc).put .expire hc (by simp only [Call.take, hlimit, if_true])
  have hleave : Reaches busy s
      (s.put i { request, stage := .leaving, kernel := .running, expired := true } (s.stray ++ [i])) :=
    hexpire.put .giveUp hc rfl
  exact hleave.put .proceed hc rfl

/-- An executor in use that holds the strays of one by the clock, where each stray has its moment. -/
structure Agrees (finish : Nat → Nat) (s : Shared) (st : State) : Prop where
  conserved : Conserved s
  stray : s.stray.map finish = st.stray

/-- A call by the clock is one of the interleavings: same outcome, same strays, and the other calls stay where they
are. -/
theorem reaches_call {duration : List Bytes → Nat} {finish : Nat → Nat} {st : State} {i : Nat} {request : RunRequest}
    (hs : Agrees finish s st) (hc : s.calls[i]? = some { request }) (hbusy : busy i = duration request.words)
    (quit : Option Nat) :
    ∃ t finish', Reaches busy s t ∧ Aside i s t ∧ Agrees finish' t (call duration quit st request).state ∧
      ∃ d, t.calls[i]? = some d ∧ d.stage = .returned (call duration quit st request).outcome := by
  cases hresult : resultFor request with
  | error fault =>
    have hrefuse : Reaches busy s (s.put i { request, stage := .returned (.error fault) } s.stray) :=
      reaches_put .proceed hc (by simp only [Call.take, Call.proceed, hresult])
    refine ⟨_, finish, hrefuse, aside_put s i _ _, ⟨hs.conserved.reaches hrefuse, ?_⟩, _, calls_put_self hc _ _, ?_⟩
    · simp only [call, hresult]
      exact hs.stray
    · simp only [call, hresult]
  | ok result =>
    have htakeOver : Reaches busy s (s.put i { request, stage := .waiting s.stray } []) :=
      reaches_put .proceed hc (by simp only [Call.take, Call.proceed, hresult])
    obtain ⟨u, left, hwaited, haside, hstray, hcall, hleft⟩ := reaches_waited finish quit request s.stray st.now _
      (hs.conserved.reaches htakeOver) (calls_put_self hc _ _)
    have hu := htakeOver.trans hwaited
    have hasideu := (aside_put s i { request, stage := .waiting s.stray } []).trans haside
    have hempty : u.stray = [] := hstray
    rw [hs.stray] at hleft
    cases hwait : waitStrays quit st.now st.stray with
    | error given =>
      obtain ⟨now, kept⟩ := given
      rw [hwait] at hleft
      obtain ⟨hsome, hkept⟩ := hleft
      obtain ⟨first, rest, rfl⟩ := List.exists_cons_of_ne_nil hsome
      have hcancel : Reaches busy u
          (u.put i { request, stage := .waiting (first :: rest), cancelled := true } u.stray) :=
        reaches_put .cancel hcall rfl
      have hrestore : Reaches busy u (u.put i { request, stage := .returned (.error .canceled), cancelled := true }
          (u.stray ++ first :: rest)) :=
        hcancel.put .giveUp hcall rfl
      refine ⟨_, finish, hu.trans hrestore, hasideu.trans (aside_put u i _ _),
        ⟨hs.conserved.reaches (hu.trans hrestore), ?_⟩, _, calls_put_self hcall _ _, ?_⟩
      · simp only [call, hresult, hwait, put, hempty, List.nil_append]
        exact hkept
      · simp only [call, hresult, hwait]
    | ok start =>
      rw [hwait] at hleft
      obtain rfl : left = [] := hleft
      rcases call_started hresult hwait with ⟨houtcome, hnone⟩ | ⟨hone, ⟨-, hcanceled⟩ | ⟨-, hlimit, htimedOut⟩⟩
      · have hend := hu.trans (reaches_received hcall)
        refine ⟨_, finish, hend, hasideu.trans (aside_put u i _ _), ⟨hs.conserved.reaches hend, ?_⟩, _,
          calls_put_self hcall _ _, ?_⟩
        · rw [hnone, put, hempty]
          rfl
        · rw [houtcome, hresult, hbusy]
          rfl
      -- the kernel left behind is to finish when the clock says so
      · have hend := hu.trans (reaches_canceled hcall)
        refine ⟨_, fun _ => start + duration request.words, hend, hasideu.trans (aside_put u i _ _),
          ⟨hs.conserved.reaches hend, ?_⟩, _, calls_put_self hcall _ _, ?_⟩
        · rw [hone, put, hempty]
          rfl
        · rw [hcanceled]
      · have hend := hu.trans (reaches_timedOut hcall hlimit)
        refine ⟨_, fun _ => start + duration request.words, hend, hasideu.trans (aside_put u i _ _),
          ⟨hs.conserved.reaches hend, ?_⟩, _, calls_put_self hcall _ _, ?_⟩
        · rw [hone, put, hempty]
          rfl
        · rw [htimedOut]

/-! ### Sessions -/

/-- The executor by the clock after a session. -/
def sessionEnd (duration : List Bytes → Nat) (st : State) (visits : List Visit) : State :=
  ((session duration st visits).getLast?.map Attempt.state).getD st

theorem sessionEnd_cons (duration : List Bytes → Nat) (st : State) (v : Visit) (rest : List Visit) :
    sessionEnd duration st (v :: rest) = sessionEnd duration (call duration v.quit st v.request).state rest := by
  rw [sessionEnd, sessionEnd, session, List.getLast?_cons, Option.map_some, Option.getD_some, Option.getD_map]

theorem reaches_session {duration : List Bytes → Nat} : ∀ (visits : List Visit) (first : Nat)
    {finish : Nat → Nat} {s : Shared} {st : State}, Agrees finish s st →
    (∀ j v, visits[j]? = some v →
      s.calls[first + j]? = some { request := v.request } ∧ busy (first + j) = duration v.request.words) →
    ∃ t finish', Reaches busy s t ∧ Agrees finish' t (sessionEnd duration st visits) ∧
      (∀ j d, j < first → s.calls[j]? = some d → ∃ kernel, t.calls[j]? = some { d with kernel }) ∧
      ∀ j a, (session duration st visits)[j]? = some a →
        ∃ d, t.calls[first + j]? = some d ∧ d.stage = .returned a.outcome
  | [], first, finish, s, st, hs, _ =>
    ⟨s, finish, .refl busy s, hs, fun _ d _ hd => ⟨d.kernel, hd⟩, fun j a ha => by simp [session] at ha⟩
  | v :: rest, first, finish, s, st, hs, hfresh => by
    obtain ⟨hc, hbusy⟩ := hfresh 0 v rfl
    obtain ⟨u, finish', hu, haside, hagrees, d, hd, hreturned⟩ := reaches_call hs hc hbusy v.quit
    have hrest : ∀ j w, rest[j]? = some w →
        u.calls[first + 1 + j]? = some { request := w.request } ∧ busy (first + 1 + j) = duration w.request.words := by
      intro j w hw
      obtain ⟨hcall, hduration⟩ := hfresh (j + 1) w hw
      rw [Nat.add_assoc, Nat.add_comm 1 j]
      refine ⟨?_, hduration⟩
      -- the calls to come have no kernel, so nothing has changed there
      obtain ⟨kernel, hkernel⟩ := haside (first + (j + 1)) _ (by omega) hcall
      have habsent := hagrees.conserved.early _ _ hkernel CallStage.noConfusion rfl
      rw [hkernel, show kernel = .absent from habsent]
    obtain ⟨t, finish'', ht, htagrees, hkeep, houtcomes⟩ := reaches_session rest (first + 1) hagrees hrest
    rw [← sessionEnd_cons] at htagrees
    refine ⟨t, finish'', hu.trans ht, htagrees, fun j e hj he => ?_, fun j a ha => ?_⟩
    · obtain ⟨kernel, hkernel⟩ := haside j e (by omega) he
      obtain ⟨kernel', hkernel'⟩ := hkeep j _ (by omega) hkernel
      exact ⟨kernel', hkernel'⟩
    · cases j with
      | zero =>
        obtain rfl : call duration v.quit st v.request = a := Option.some.inj ha
        obtain ⟨kernel, hkernel⟩ := hkeep first d (by omega) hd
        exact ⟨_, hkernel, hreturned⟩
      | succ j =>
        obtain ⟨e, he, hstage⟩ := houtcomes j a ha
        exact ⟨e, by rw [← he, Nat.add_assoc, Nat.add_comm 1 j], hstage⟩

/-- How long the kernel of each call of a session takes. -/
def sessionBusy (duration : List Bytes → Nat) (visits : List Visit) (i : Nat) : Nat :=
  duration (visits[i]?.getD default).request.words

/-- A session by the clock is one of the interleavings of its calls: every call returns what it returns there, and as
many strays are left in the end. -/
theorem exists_steps_session (duration : List Bytes → Nat) (visits : List Visit) :
    ∃ schedule t,
      (ofRequests (visits.map Visit.request)).steps (sessionBusy duration visits) schedule = some t ∧
      (∀ (i : Nat) (a : Attempt State), (session duration {} visits)[i]? = some a →
        ∃ d : Call, t.calls[i]? = some d ∧ d.stage = .returned a.outcome) ∧
      t.stray.length = (sessionEnd duration {} visits).stray.length := by
  have hs : Agrees id (ofRequests (visits.map Visit.request)) {} := ⟨conserved_ofRequests _, rfl⟩
  have hfresh : ∀ j v, visits[j]? = some v →
      (ofRequests (visits.map Visit.request)).calls[0 + j]? = some { request := v.request } ∧
        sessionBusy duration visits (0 + j) = duration v.request.words := by
    intro j v hv
    rw [Nat.zero_add, sessionBusy, hv]
    exact ⟨by simp [ofRequests, hv], rfl⟩
  obtain ⟨t, finish, ⟨schedule, hsteps⟩, hagrees, -, houtcomes⟩ := reaches_session visits 0 hs hfresh
  refine ⟨schedule, t, hsteps, fun i a ha => ?_, ?_⟩
  · simpa using houtcomes i a ha
  · rw [← hagrees.stray, List.length_map]

end Shared

end Stopwatch.InProcess
