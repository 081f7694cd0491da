import Mathlib.Data.List.Basic
import Stopwatch.Isolate.Tool

/-!
The life of a box. A call invokes the sandbox tool not at all, to make a box that then fails, or to make a box, use it
and remove it again; the system may refuse to start the use or the removal. Boxes of a session are not open side by side:
following the invocations one by one, a box is only made while none is open, only used and removed while it is open, and
none is open after a call. A call leaves its box open in two cases only: the caller gave up before the box was made, and
it was made all the same, or the system did not start the removal.
-/

namespace Stopwatch.Isolate

/-! ### One call -/

/-- Whether a call gets as far as starting the tool. -/
def Visit.ReachesTool (v : Visit) : Prop :=
  v.request.words ≠ [] ∧ v.behaviour.noTempDir = none ∧ v.behaviour.make.started = true

/-- The invocations of a call, by what the tool does. -/
inductive Visit.Course (v : Visit) (box : Bytes) : List Invocation → Prop where
  /-- Without a command, a directory, or a tool that starts, nothing is invoked. -/
  | idle (h : ¬ v.ReachesTool) : v.Course box []
  /-- A box whose making failed, or came after the caller had given up, is left alone. -/
  | unmade (h : v.ReachesTool) (hmake : v.behaviour.make ≠ .exited 0) :
      v.Course box [⟨box, .make, v.behaviour.make⟩]
  | whole (h : v.ReachesTool) (hmake : v.behaviour.make = .exited 0) (hrun : v.behaviour.run.started = true)
      (hremove : v.behaviour.remove.started = true) :
      v.Course box
        [⟨box, .make, .exited 0⟩, ⟨box, .run v.request (Files.inside v.dir), v.behaviour.run⟩,
          ⟨box, .remove, v.behaviour.remove⟩]
  /-- A run that the system refuses to start is passed over, and the box is removed all the same. -/
  | unused (h : v.ReachesTool) (hmake : v.behaviour.make = .exited 0) (hrun : v.behaviour.run.started = false)
      (hremove : v.behaviour.remove.started = true) :
      v.Course box [⟨box, .make, .exited 0⟩, ⟨box, .remove, v.behaviour.remove⟩]
  /-- So is a removal, and the box stays. -/
  | kept (h : v.ReachesTool) (hmake : v.behaviour.make = .exited 0) (hrun : v.behaviour.run.started = true)
      (hremove : v.behaviour.remove.started = false) :
      v.Course box [⟨box, .make, .exited 0⟩, ⟨box, .run v.request (Files.inside v.dir), v.behaviour.run⟩]
  | unusedKept (h : v.ReachesTool) (hmake : v.behaviour.make = .exited 0) (hrun : v.behaviour.run.started = false)
      (hremove : v.behaviour.remove.started = false) : v.Course box [⟨box, .make, .exited 0⟩]

/-- What a call asks the system for, whether it is started or not. A box that was made is used once and removed once. -/
inductive Visit.Asks (v : Visit) (box : Bytes) : List Invocation → Prop where
  | nothing (h : v.request.words = [] ∨ v.behaviour.noTempDir ≠ none) : v.Asks box []
  | make (hwords : v.request.words ≠ []) (hdir : v.behaviour.noTempDir = none) (hmake : v.behaviour.make ≠ .exited 0) :
      v.Asks box [⟨box, .make, v.behaviour.make⟩]
  | whole (hwords : v.request.words ≠ []) (hdir : v.behaviour.noTempDir = none) (hmake : v.behaviour.make = .exited 0) :
      v.Asks box
        [⟨box, .make, .exited 0⟩, ⟨box, .run v.request (Files.inside v.dir), v.behaviour.run⟩,
          ⟨box, .remove, v.behaviour.remove⟩]

theorem trouble_eq_none_iff {e : Ending} : e.trouble = none ↔ e = .exited 0 := by
  cases e with
  | exited code => cases code <;> simp [Ending.trouble]
  | signaled text => simp [Ending.trouble]
  | overtaken cause => simp [Ending.trouble]
  | notStarted cause => simp [Ending.trouble]

/-- A call with a command takes the next number, whatever comes of it. -/
theorem counter_execute (b : Behaviour) (dir : Bytes) (counter : Counter) (req : RunRequest) :
    (execute b dir counter req).counter = if req.words.isEmpty then counter else counter + 1 := by
  rw [execute]
  by_cases hwords : req.words.isEmpty = true
  · simp [hwords]
  · simp only [hwords, Bool.false_eq_true, if_false]
    cases b.noTempDir with
    | some cause => rfl
    | none => cases b.make.trouble <;> rfl

theorem asks_execute (v : Visit) (counter : Counter) :
    v.Asks (boxId (execute v.behaviour v.dir counter v.request).counter)
      (execute v.behaviour v.dir counter v.request).attempts := by
  rw [counter_execute, execute]
  by_cases hwords : v.request.words = []
  · simp only [hwords, List.isEmpty_nil, if_true]
    exact .nothing (Or.inl hwords)
  have hsome : v.request.words.isEmpty = false := List.isEmpty_eq_false_iff.mpr hwords
  simp only [hsome, Bool.false_eq_true, if_false]
  cases hdir : v.behaviour.noTempDir with
  | some cause => exact .nothing (Or.inr (by rw [hdir]; exact Option.some_ne_none cause))
  | none =>
    cases htrouble : v.behaviour.make.trouble with
    | some cause =>
      refine .make hwords hdir fun hmake => ?_
      rw [hmake] at htrouble
      exact Option.some_ne_none cause htrouble.symm
    | none =>
      have hmake := trouble_eq_none_iff.mp htrouble
      simp only [hmake]
      exact .whole hwords hdir hmake

/-- The system starts what it starts, and every call keeps to its course. -/
theorem Visit.Asks.course {v : Visit} {box : Bytes} {attempts : List Invocation} (h : v.Asks box attempts) :
    v.Course box (attempts.filter fun i => i.ending.started) := by
  cases h with
  | nothing h =>
    refine .idle fun hreach => ?_
    rcases h with hwords | hdir
    · exact hreach.1 hwords
    · exact hdir hreach.2.1
  | make hwords hdir hmake =>
    cases hstarted : v.behaviour.make.started with
    | true =>
      simp only [List.filter_cons, hstarted, if_true, List.filter_nil]
      exact .unmade ⟨hwords, hdir, hstarted⟩ hmake
    | false =>
      simp only [List.filter_cons, hstarted, Bool.false_eq_true, if_false, List.filter_nil]
      exact .idle fun hreach => Bool.false_ne_true (hstarted.symm.trans hreach.2.2)
  | whole hwords hdir hmake =>
    have hreach : v.ReachesTool := ⟨hwords, hdir, by rw [hmake]; rfl⟩
    have hstarted : (Ending.exited 0).started = true := rfl
    cases hrun : v.behaviour.run.started <;> cases hremove : v.behaviour.remove.started <;>
      simp only [List.filter_cons, hstarted, hrun, hremove, if_true, Bool.false_eq_true, if_false, List.filter_nil]
    · exact .unusedKept hreach hmake hrun hremove
    · exact .unused hreach hmake hrun hremove
    · exact .kept hreach hmake hrun hremove
    · exact .whole hreach hmake hrun hremove

/-! ### Sessions -/

/-- How many boxes the calls of a session take: one for each command. -/
def boxesTaken (visits : List Visit) : Nat := visits.countP fun v => !v.request.words.isEmpty

theorem length_session : ∀ (start : Counter) (visits : List Visit), (session start visits).length = visits.length
  | _, [] => rfl
  | start, v :: rest => by rw [session, List.length_cons, length_session, List.length_cons]

/-- The counter goes up by one with each box, and starts again after the last number of 32 bits. -/
theorem toNat_counter_execute (b : Behaviour) (dir : Bytes) (counter : Counter) (req : RunRequest) :
    (execute b dir counter req).counter.toNat =
      (counter.toNat + if req.words.isEmpty then 0 else 1) % UInt32.size := by
  rw [counter_execute]
  split
  · exact (Nat.mod_eq_of_lt counter.toNat_lt_size).symm
  · exact UInt32.toNat_add counter 1

/-- A call of a session works from the counter that the calls before it have left. -/
theorem session_getElem? : ∀ (visits : List Visit) (start : Counter) (i : Nat) (v : Visit), visits[i]? = some v →
    ∃ counter, (session start visits)[i]? = some (execute v.behaviour v.dir counter v.request) ∧
      counter.toNat = (start.toNat + boxesTaken (visits.take i)) % UInt32.size
  | [], _, _, _, hv => by simp at hv
  | w :: rest, start, 0, v, hv => by
    simp only [List.getElem?_cons_zero, Option.some.injEq] at hv
    subst hv
    exact ⟨start, rfl, (Nat.mod_eq_of_lt start.toNat_lt_size).symm⟩
  | w :: rest, start, i + 1, v, hv => by
    rw [List.getElem?_cons_succ] at hv
    obtain ⟨counter, hcall, hcounter⟩ := session_getElem? rest _ i v hv
    refine ⟨counter, hcall, ?_⟩
    rw [hcounter, toNat_counter_execute, List.take_succ_cons, boxesTaken, boxesTaken, List.countP_cons,
      Nat.mod_add_mod, Nat.add_assoc]
    cases w.request.words.isEmpty <;> simp [Nat.add_comm]

/-- The counter after a call of a session. -/
theorem toNat_counter_session {visits : List Visit} {start : Counter} {i : Nat} {v : Visit} {c : Call}
    (hv : visits[i]? = some v) (hc : (session start visits)[i]? = some c) :
    c.counter.toNat = (start.toNat + boxesTaken (visits.take (i + 1))) % UInt32.size := by
  obtain ⟨counter, hcall, hcounter⟩ := session_getElem? visits start i v hv
  obtain rfl : execute v.behaviour v.dir counter v.request = c := Option.some.inj (hcall.symm.trans hc)
  rw [toNat_counter_execute, hcounter, Nat.mod_add_mod, List.take_add_one, hv, boxesTaken, boxesTaken,
    List.countP_append, Option.toList_some, List.countP_singleton, Nat.add_assoc]
  cases v.request.words.isEmpty <;> simp

/-! ### One box after the other -/

/-- The box that is open after an invocation; none at all if the invocation may not come now. A box is made while none is
open, and used and removed while it is open itself. -/
def Invocation.follow (opened : Option Bytes) (i : Invocation) : Option (Option Bytes) :=
  match i.errand with
  | .make => if opened = none then some (if i.ending.fulfilled then some i.box else none) else none
  | .run _ _ => if opened = some i.box then some opened else none
  | .remove => if opened = some i.box then some none else none

/-- A call that leaves its box open: the caller gave up before it was made, or the system did not start the removal. -/
def Visit.Leaks (v : Visit) : Prop :=
  v.ReachesTool ∧
    ((v.behaviour.make ≠ .exited 0 ∧ v.behaviour.make.fulfilled = true) ∨
      (v.behaviour.make = .exited 0 ∧ v.behaviour.remove.started = false))

/-- Where a call leaves no box open, it has removed the box that it made, if it made one. -/
theorem Visit.Course.closes {v : Visit} {box : Bytes} {l : List Invocation} (h : v.Course box l) (hleaks : ¬ v.Leaks) :
    l.foldlM Invocation.follow none = some none := by
  have hfulfilled : (Ending.exited 0).fulfilled = true := rfl
  cases h with
  | idle h => rfl
  | unmade h hmake =>
    have hunmade : v.behaviour.make.fulfilled = false :=
      Bool.eq_false_iff.mpr fun hmade => hleaks ⟨h, Or.inl ⟨hmake, hmade⟩⟩
    simp [Invocation.follow, hunmade]
  | whole h hmake hrun hremove => simp [Invocation.follow, hfulfilled]
  | unused h hmake hrun hremove => simp [Invocation.follow, hfulfilled]
  | kept h hmake hrun hremove => exact absurd ⟨h, Or.inr ⟨hmake, hremove⟩⟩ hleaks
  | unusedKept h hmake hrun hremove => exact absurd ⟨h, Or.inr ⟨hmake, hremove⟩⟩ hleaks

theorem Visit.Course.leaves {v : Visit} {box : Bytes} {l : List Invocation} (h : v.Course box l) (hleaks : v.Leaks) :
    l.foldlM Invocation.follow none = some (some box) := by
  have hfulfilled : (Ending.exited 0).fulfilled = true := rfl
  obtain ⟨hreach, hcase⟩ := hleaks
  cases h with
  | idle h => exact absurd hreach h
  | unmade h hmake =>
    rcases hcase with ⟨-, hmade⟩ | ⟨hmade, -⟩
    · simp [Invocation.follow, hmade]
    · exact absurd hmade hmake
  | kept h hmake hrun hremove => simp [Invocation.follow, hfulfilled]
  | unusedKept h hmake hrun hremove => simp [Invocation.follow, hfulfilled]
  | whole h hmake hrun hremove | unused h hmake hrun hremove =>
    rcases hcase with ⟨hunmade, -⟩ | ⟨-, hrefused⟩
    · exact absurd hmake hunmade
    · exact absurd (hrefused.symm.trans hremove) Bool.false_ne_true

theorem session_closes : ∀ (visits : List Visit) (start : Counter), (∀ v ∈ visits, ¬ v.Leaks) →
    ((session start visits).flatMap Call.invocations).foldlM Invocation.follow none = some none
  | [], _, _ => rfl
  | v :: rest, start, hleaks => by
    have hfirst := (asks_execute v start).course.closes (hleaks v List.mem_cons_self)
    rw [session, List.flatMap_cons, List.foldlM_append, Call.invocations, hfirst]
    exact session_closes rest _ fun w hw => hleaks w (List.mem_cons_of_mem v hw)

/-- In every session, whatever the tool does, the calls keep to their courses, all with the number of the counter after
the call. A call asks the system for nothing, for a box that does not come about, or for a box, a run in it and its
removal; its invocations are those that the system starts. A box is left open exactly by the calls that leak, and in a
session without such calls a box is made only while none is open, used and removed only while it is open, and none is
left open. -/
theorem box_lifecycle (start : Counter) (visits : List Visit) :
    (session start visits).length = visits.length ∧
    (∀ i v, visits[i]? = some v → ∃ c box, (session start visits)[i]? = some c ∧
      c.counter.toNat = (start.toNat + boxesTaken (visits.take (i + 1))) % UInt32.size ∧
      box = Integer.ofNat (c.counter.toNat % 1000) ∧ v.Asks box c.attempts ∧ v.Course box c.invocations ∧
      (v.Leaks → c.invocations.foldlM Invocation.follow none = some (some box)) ∧
      (¬ v.Leaks → c.invocations.foldlM Invocation.follow none = some none)) ∧
    ((∀ v ∈ visits, ¬ v.Leaks) →
      ((session start visits).flatMap Call.invocations).foldlM Invocation.follow none = some none) := by
  refine ⟨length_session start visits, fun i v hv => ?_, session_closes visits start⟩
  obtain ⟨counter, hcall, -⟩ := session_getElem? visits start i v hv
  have hasks := asks_execute v counter
  exact ⟨_, _, hcall, toNat_counter_session hv hcall, rfl, hasks, hasks.course, hasks.course.leaves, hasks.course.closes⟩

/-- At the last number of the counter: a call without a command takes no number, and the next call gets box 0, which it
makes and removes around a run that fails. The caller of a third call gives up before its box is made, and box 1 stays. -/
theorem box_lifecycle_wraps :
    let b : Behaviour := { run := .exited 1, remove := .exited 2 }
    let req : RunRequest := { command := some [utf8 "x"] }
    let visits : List Visit :=
      [⟨b, utf8 "t", {}⟩, ⟨b, utf8 "t", req⟩, ⟨{ b with make := .overtaken canceledText }, utf8 "t", req⟩]
    (∃ c, (session 4294967295 visits)[1]? = some c ∧ c.counter.toNat = 0 ∧
      c.invocations.map Invocation.errand = [.make, .run req (Files.inside (utf8 "t")), .remove] ∧
      c.invocations.map Invocation.box = [utf8 "0", utf8 "0", utf8 "0"]) ∧
    ∃ c, (session 4294967295 visits)[2]? = some c ∧ c.counter.toNat = 1 ∧
      c.invocations.foldlM Invocation.follow none = some (some (utf8 "1")) := by
  intro b req visits
  obtain ⟨-, hcalls, -⟩ := box_lifecycle 4294967295 visits
  obtain ⟨c, box, hc, hcounter, rfl, -, hcourse, -⟩ := hcalls 1 ⟨b, utf8 "t", req⟩ rfl
  obtain ⟨d, box, hd, hnext, rfl, -, -, hleft, -⟩ :=
    hcalls 2 ⟨{ b with make := .overtaken canceledText }, utf8 "t", req⟩ rfl
  have hzero : c.counter.toNat = 0 := hcounter.trans (by decide)
  have hone : d.counter.toNat = 1 := hnext.trans (by decide)
  refine ⟨⟨c, hc, hzero, ?_⟩, d, hd, hone, ?_⟩
  · rw [hzero] at hcourse
    generalize c.invocations = l at hcourse ⊢
    cases hcourse with
    | idle h => exact absurd ⟨List.cons_ne_nil _ _, rfl, rfl⟩ h
    | unmade h hmake => exact absurd rfl hmake
    | whole h hmake hrun hremove => exact ⟨rfl, by decide⟩
    | unused h hmake hrun hremove => exact absurd hrun (by decide)
    | kept h hmake hrun hremove => exact absurd hremove (by decide)
    | unusedKept h hmake hrun hremove => exact absurd hremove (by decide)
  · rw [hone] at hleft
    exact hleft ⟨⟨List.cons_ne_nil _ _, rfl, rfl⟩, Or.inl ⟨Ending.noConfusion, rfl⟩⟩

/-- A box need not be used: the words of a command that hold a NUL octet cannot be handed to the tool. The box is made
and removed, and there is no run between the two. -/
theorem box_unused_nul :
    let req : RunRequest := { command := some [[97, 0, 98]] }
    let b := ({} : Behaviour).withTool (.ok (utf8 "/bin/true")) req
    let box := utf8 "1"
    b.make = .exited 0 ∧
      (execute b (utf8 "t") 0 req).invocations = [⟨box, .make, b.make⟩, ⟨box, .remove, b.remove⟩] ∧
      ¬ ((execute b (utf8 "t") 0 req).invocations = [] ∨
        (execute b (utf8 "t") 0 req).invocations = [⟨box, .make, b.make⟩] ∨
        (execute b (utf8 "t") 0 req).invocations =
          [⟨box, .make, b.make⟩, ⟨box, .run req (Files.inside (utf8 "t")), b.run⟩, ⟨box, .remove, b.remove⟩]) := by
  decide

end Stopwatch.Isolate
