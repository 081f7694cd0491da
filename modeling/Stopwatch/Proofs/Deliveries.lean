import Mathlib.Tactic.Common
import Stopwatch.CommandLine.Service
import Stopwatch.Proofs.Drafts
import Stopwatch.Proofs.Shutdown

/-!
Messages that a subscriber gets, and the requests that it passes on. A message holds a request if it is one value of the
grammar that fits the fields of a request; it then gives the request field by field.
-/

namespace Stopwatch.Wire

/-! ### Programs -/

/-- The fields of a program, each with its reader. -/
def programReaders : List (Field ProgramDraft) :=
  [⟨"name", textOver, ProgramDraft.name, fun p a => { p with name := a }⟩,
    ⟨"executor", textOver, ProgramDraft.executor, fun p a => { p with executor := a }⟩,
    ⟨"command", listOver [] textOver, ProgramDraft.command, fun p a => { p with command := a }⟩,
    ⟨"expectOutput", textOver, ProgramDraft.expectOutput, fun p a => { p with expectOutput := a }⟩]

theorem readsFields_program : ReadsFields ProgramDraft.entry programReaders where
  fold h p v := by simp only [ProgramDraft.entry, h]
  own := by simp [programReaders]
  other p key v h := by
    simp only [programReaders, List.forall_mem_cons] at h
    simp [ProgramDraft.entry, h]
  get_set := by simp [programReaders]
  get_set_other := by simp [programReaders]

/-- The fields of a program and what fits them. -/
def programFields : List (String × (Value → Prop)) :=
  [("name", FitsText), ("executor", FitsText), ("command", FitsList FitsText), ("expectOutput", FitsText)]

/-- The program that entries give. -/
def programOf (es : List (Bytes × Value)) : Program :=
  { name := lastOf Value.text? [] (valuesOf "name" es)
    executor := lastOf Value.text? [] (valuesOf "executor" es)
    command := overlaid (lastOf Value.text? []) (valuesOf "command" es)
    expectOutput := lastOf Value.text? [] (valuesOf "expectOutput" es) }

theorem readsAs_program : ReadsAs (tableOver ProgramDraft.entry) {} ProgramDraft.done (FitsTable programFields)
    fun vs => programOf (vs.flatMap entriesOf) := by
  have htext := readsAs_textOver
  have hlist := readsAs_listOver readsAs_textOver
  refine readsAs_tableOver (fun es => ?_) (fun {es p} h => ?_)
  · rw [readsFields_program.isSome_entries]
    simp only [programReaders, programFields, List.forall_mem_cons, htext.isSome_iff, hlist.isSome_iff, List.not_mem_nil,
      false_implies, implies_true]
  · have hfields := fun f hf => readsFields_program.get_entries (f := f) hf h
    simp only [programReaders, List.forall_mem_cons] at hfields
    obtain ⟨hname, hexecutor, hcommand, hexpect, -⟩ := hfields
    have hcommand : p.command.map Slots.items = overlaid (lastOf Value.text? []) (valuesOf "command" es) := by
      simpa using hlist.view_eq hcommand
    simp only [ProgramDraft.done, programOf, Program.mk.injEq]
    exact ⟨htext.view_eq hname, htext.view_eq hexecutor, hcommand, htext.view_eq hexpect⟩

/-! ### Requests -/

/-- The fields of a request, each with its reader. -/
def requestReaders : List (Field RequestDraft) :=
  [⟨"id", textOver, RequestDraft.id, fun r a => { r with id := a }⟩,
    ⟨"programs", listOver {} (tableOver ProgramDraft.entry), RequestDraft.programs, fun r a => { r with programs := a }⟩,
    ⟨"minDurationMs", intOver, RequestDraft.minDurationMs, fun r a => { r with minDurationMs := a }⟩,
    ⟨"timeLimitMs", intOver, RequestDraft.timeLimitMs, fun r a => { r with timeLimitMs := a }⟩,
    ⟨"memoryLimitKb", intOver, RequestDraft.memoryLimitKb, fun r a => { r with memoryLimitKb := a }⟩]

theorem readsFields_request : ReadsFields RequestDraft.entry requestReaders where
  fold h r v := by simp only [RequestDraft.entry, h]
  own := by simp [requestReaders]
  other r key v h := by
    simp only [requestReaders, List.forall_mem_cons] at h
    simp [RequestDraft.entry, h]
  get_set := by simp [requestReaders]
  get_set_other := by simp [requestReaders]

/-- The fields of a request and what fits them. -/
def requestFields : List (String × (Value → Prop)) :=
  [("id", FitsText), ("programs", FitsList (FitsTable programFields)), ("minDurationMs", FitsInt),
    ("timeLimitMs", FitsInt), ("memoryLimitKb", FitsInt)]

/-- The request that entries give. -/
def requestOf (es : List (Bytes × Value)) : Request :=
  { id := lastOf Value.text? [] (valuesOf "id" es)
    programs := overlaid (fun vs => programOf (vs.flatMap entriesOf)) (valuesOf "programs" es)
    minDurationMs := lastOf Value.int? 0 (valuesOf "minDurationMs" es)
    timeLimitMs := lastOf Value.int? 0 (valuesOf "timeLimitMs" es)
    memoryLimitKb := lastOf Value.int? 0 (valuesOf "memoryLimitKb" es) }

theorem readsAs_request : ReadsAs (tableOver RequestDraft.entry) {} RequestDraft.done (FitsTable requestFields)
    fun vs => requestOf (vs.flatMap entriesOf) := by
  have htext := readsAs_textOver
  have hint := readsAs_intOver
  have hlist := readsAs_listOver readsAs_program
  refine readsAs_tableOver (fun es => ?_) (fun {es r} h => ?_)
  · rw [readsFields_request.isSome_entries]
    simp only [requestReaders, requestFields, List.forall_mem_cons, htext.isSome_iff, hint.isSome_iff, hlist.isSome_iff,
      List.not_mem_nil, false_implies, implies_true]
  · have hfields := fun f hf => readsFields_request.get_entries (f := f) hf h
    simp only [requestReaders, List.forall_mem_cons] at hfields
    obtain ⟨hid, hprograms, hduration, htime, hmemory, -⟩ := hfields
    simp only [RequestDraft.done, requestOf, Request.mk.injEq]
    exact ⟨htext.view_eq hid, hlist.view_eq hprograms, hint.view_eq hduration, hint.view_eq htime, hint.view_eq hmemory⟩

/-- A payload holds a request: it is one value of the grammar, no deeper than the reader goes, with blanks around it, and
every value of a known field is null or of the type of the field. -/
def HoldsRequest (payload : Bytes) (r : Request) : Prop :=
  ∃ v, Padded (Written maxDepth) v payload ∧ FitsTable requestFields v ∧ r = requestOf (entriesOf v)

/-- Exactly the payloads that hold a request are decoded, each as the request that it holds. -/
theorem decode_eq_some_iff {payload : Bytes} {r : Request} : Request.decode payload = some r ↔ HoldsRequest payload r := by
  have hread : ∀ {v draft}, tableOver RequestDraft.entry {} v = some draft →
      FitsTable requestFields v ∧ draft.done = requestOf (entriesOf v) := by
    intro v draft h
    have hover : readOver (tableOver RequestDraft.entry) {} [v] = some draft := by simp [h]
    exact ⟨readsAs_request.fits hover v List.mem_cons_self, by simpa using readsAs_request.view_eq hover⟩
  simp only [Request.decode, bind, Option.bind_eq_some_iff, parse_eq_some_iff, HoldsRequest]
  constructor
  · rintro ⟨v, hv, draft, hdraft, hr⟩
    obtain ⟨hfits, hdone⟩ := hread hdraft
    exact ⟨v, hv, hfits, (Option.some.inj hr).symm.trans hdone⟩
  · rintro ⟨v, hv, hfits, rfl⟩
    obtain ⟨draft, hover⟩ := readsAs_request.exists_eq_some (List.forall_mem_singleton.mpr hfits)
    have hdraft : tableOver RequestDraft.entry {} v = some draft := by simpa using hover
    exact ⟨v, hv, draft, hdraft, congrArg some (hread hdraft).2⟩

-- The largest machine integer is a limit, the next one is none.
example : (Request.decode (utf8 "\x7b\"timeLimitMs\":9223372036854775807\x7d")).map Request.timeLimitMs
      = some 9223372036854775807 ∧
    Request.decode (utf8 "\x7b\"timeLimitMs\":9223372036854775808\x7d") = none := by
  decide +kernel

end Stopwatch.Wire

namespace Stopwatch

/-! ### Messages in a row -/

namespace Bus

/-- The calls that a subscriber makes for the messages that it gets: one for each message that holds a request, with that
request and the reply subject of the message. -/
inductive PassesOn : List Delivery → List (Request × Bytes) → Prop
  | nil : PassesOn [] []
  | pass {d : Delivery} {ds : List Delivery} {r : Request} {calls : List (Request × Bytes)}
    (h : Wire.HoldsRequest d.payload r) (rest : PassesOn ds calls) : PassesOn (d :: ds) ((r, d.reply) :: calls)
  | drop {d : Delivery} {ds : List Delivery} {calls : List (Request × Bytes)}
    (h : ∀ r, ¬Wire.HoldsRequest d.payload r) (rest : PassesOn ds calls) : PassesOn (d :: ds) calls

theorem Delivery.request?_eq_some_iff {d : Delivery} {r : Request} {reply : Bytes} :
    d.request? = some (r, reply) ↔ Wire.HoldsRequest d.payload r ∧ d.reply = reply := by
  rw [request?, ← Wire.decode_eq_some_iff]
  cases Request.decode d.payload <;> simp

theorem Delivery.request?_eq_none_iff {d : Delivery} :
    d.request? = none ↔ ∀ r, ¬Wire.HoldsRequest d.payload r := by
  rw [request?, Option.map_eq_none_iff, Option.eq_none_iff_forall_ne_some]
  exact forall_congr' fun r => not_congr Wire.decode_eq_some_iff

theorem passedOn_append (ds es : List Delivery) : passedOn (ds ++ es) = passedOn ds ++ passedOn es :=
  List.filterMap_append

theorem passedOn_cons_none {d : Delivery} (h : d.request? = none) (ds : List Delivery) :
    passedOn (d :: ds) = passedOn ds := List.filterMap_cons_none h

theorem passedOn_cons_some {d : Delivery} {call : Request × Bytes} (h : d.request? = some call) (ds : List Delivery) :
    passedOn (d :: ds) = call :: passedOn ds := List.filterMap_cons_some h

theorem passesOn_iff {ds : List Delivery} {calls : List (Request × Bytes)} : PassesOn ds calls ↔ calls = passedOn ds := by
  constructor
  · intro h
    induction h with
    | nil => rfl
    | pass h _ ih => rw [ih, passedOn_cons_some (Delivery.request?_eq_some_iff.mpr ⟨h, rfl⟩)]
    | drop h _ ih => rw [ih, passedOn_cons_none (Delivery.request?_eq_none_iff.mpr h)]
  · rintro rfl
    induction ds with
    | nil => exact .nil
    | cons d ds ih =>
      cases hd : d.request? with
      | none =>
        rw [passedOn_cons_none hd]
        exact .drop (Delivery.request?_eq_none_iff.mp hd) ih
      | some call =>
        obtain ⟨r, reply⟩ := call
        obtain ⟨hholds, rfl⟩ := Delivery.request?_eq_some_iff.mp hd
        rw [passedOn_cons_some hd]
        exact .pass hholds ih

end Bus

namespace CommandLine.Service

/-- Messages in a row have the effect of the calls for those that hold a request. -/
theorem foldl_receive {σ : Type} (ds : List Bus.Delivery) (s : Service σ) :
    ds.foldl receive s = (Bus.passedOn ds).foldl (fun s call => s.handle call.1 call.2) s := by
  induction ds generalizing s with
  | nil => rfl
  | cons d ds ih =>
    rw [List.foldl_cons, ih]
    cases hd : d.request? with
    | none => rw [Bus.passedOn_cons_none hd, receive, hd]
    | some call => rw [Bus.passedOn_cons_some hd, List.foldl_cons, receive, hd]

end CommandLine.Service

namespace Worker

/-- The message that an incident brings. -/
def Incident.delivery? : Incident → Option Bus.Delivery
  | .deliver d => some d
  | _ => none

theorem Pool.jobs_step {h : Handler} {p q : Pool} {number : Nat} (hstep : p.step h number = some q) :
    q.tasks.map Task.job = p.tasks.map Task.job := by
  obtain ⟨t, stage, acts, ht, -, -, rfl⟩ := step_eq_some hstep
  obtain ⟨hlt, rfl⟩ := List.getElem?_eq_some_iff.mp ht
  refine List.ext_getElem? fun i => ?_
  rw [put, List.map_set, List.getElem?_set, List.getElem?_map]
  split
  · next hi => simp [← hi, hlt]
  · rfl

namespace Serving

variable {h : Handler} {s t : Serving}

/-- The requests that were handed in, and the one in the message that is still to be read. -/
def calls (s : Serving) : List (Request × Bytes) :=
  (s.pool.tasks.map fun t => (t.job.request, t.job.reply)) ++ Bus.passedOn s.message.toList

theorem calls_step {e : Incident} (hstep : s.step h e = some t) :
    t.calls = s.calls ++ Bus.passedOn e.delivery?.toList := by
  cases (moves_of_step hstep).2 with
  | deliver d hphase hfree =>
    obtain ⟨hnone, -⟩ := Bool.and_eq_true_iff.mp hfree
    have hmessage : s.message = none := by simpa using hnone
    simp [calls, hmessage, Incident.delivery?, Bus.passedOn]
  | skip hmessage hnone => simp [calls, hmessage, Incident.delivery?, Bus.passedOn, hnone]
  | hand hmessage hsome hpool => simp [calls, hmessage, Incident.delivery?, Bus.passedOn, hsome, Pool.withBlocked]
  | work htask hmay hpool =>
    have hjobs := congrArg (List.map fun job : Job => (job.request, job.reply)) (Pool.jobs_step hpool)
    simp only [List.map_map, Function.comp_def] at hjobs
    simp [calls, hjobs, Incident.delivery?, Bus.passedOn]
  | crash htask hclosed hout => simp [calls, Incident.delivery?, Bus.passedOn]
  | shutDown hphase => simp [calls, Incident.delivery?, Bus.passedOn]

theorem calls_steps {incidents : List Incident} (hsteps : s.steps h incidents = some t) :
    t.calls = s.calls ++ Bus.passedOn (incidents.filterMap Incident.delivery?) := by
  induction incidents generalizing s with
  | nil =>
    cases hsteps
    simp [Bus.passedOn]
  | cons e incidents ih =>
    rw [steps, Option.bind_eq_some_iff] at hsteps
    obtain ⟨u, hu, hrest⟩ := hsteps
    rw [ih hrest, calls_step hu, List.append_assoc, ← Bus.passedOn_append]
    cases hd : e.delivery? <;> simp [hd]

/-- The calls for messages in a row are one for each message that holds a request, in order, with the request that it
holds and its reply subject. They are all that the messages do: a service that takes them one by one ends as it would by
these calls alone, and whatever else a service with a pool is busy with, it has made or is about to make just these. -/
theorem calls_exactly_decodable (ds : List Bus.Delivery) :
    (∀ calls, Bus.PassesOn ds calls ↔ calls = Bus.passedOn ds) ∧
    (∀ (σ : Type) (s : CommandLine.Service σ),
      ds.foldl CommandLine.Service.receive s = (Bus.passedOn ds).foldl (fun s call => s.handle call.1 call.2) s) ∧
    ∀ (h : Handler) (incidents : List Incident) (s : Serving), ({} : Serving).steps h incidents = some s →
      incidents.filterMap Incident.delivery? = ds → s.calls = Bus.passedOn ds := by
  refine ⟨fun calls => Bus.passesOn_iff, fun σ s => CommandLine.Service.foldl_receive ds s, ?_⟩
  rintro h incidents s hsteps rfl
  exact calls_steps hsteps

/-- A field of the wrong type after one that was read, a request with an unknown field and null for a known one, and
something after the value. -/
theorem calls_exactly_decodable_mixed :
    let wrong : Bus.Delivery := ⟨utf8 "\x7b\"id\":\"a\",\"timeLimitMs\":1.5\x7d", utf8 "x"⟩
    let fitting : Bus.Delivery := ⟨utf8 "\x7b\"ID\":\"b\",\"color\":[1],\"timeLimitMs\":null\x7d", utf8 "y"⟩
    let trailing : Bus.Delivery := ⟨utf8 "null]", utf8 "z"⟩
    let h : Handler :=
      { settings := {}
        freshId := fun number => utf8 "job" ++ [number.toUInt8]
        runner := fun _ request => { requestId := request.id, scoreMs := 0 }
        responder := none }
    let incidents := [.deliver wrong, .read, .deliver fitting, .read, .work 0, .deliver trailing, .read]
    Bus.PassesOn [wrong, fitting, trailing] [({ id := utf8 "b" }, utf8 "y")] ∧
      ∃ s, ({} : Serving).steps h incidents = some s ∧ s.calls = [({ id := utf8 "b" }, utf8 "y")] := by
  intro wrong fitting trailing h incidents
  obtain ⟨hpasses, -, hcalls⟩ := calls_exactly_decodable [wrong, fitting, trailing]
  have hpassed : Bus.passedOn [wrong, fitting, trailing] = [({ id := utf8 "b" }, utf8 "y")] := by decide +kernel
  have hrun : (({} : Serving).steps h incidents).isSome = true := by decide +kernel
  obtain ⟨s, hsteps⟩ := Option.isSome_iff_exists.mp hrun
  refine ⟨(hpasses _).mpr hpassed.symm, s, hsteps, ?_⟩
  rw [hcalls h incidents s hsteps rfl, hpassed]

end Serving

end Worker

end Stopwatch
