import Stopwatch.CommandLine.Service
import Stopwatch.Proofs.Interleaving
import Stopwatch.Proofs.Messages
import Stopwatch.Proofs.Verdict

/-!
Asking a service to measure is measuring here. The request that a command line makes reaches the runner of a service with
the same settings field by field as it would reach the runner of the command that measures here.
-/

namespace Stopwatch

/-! ### Requests that leave nothing open -/

theorem Request.idAt_ne_nil (moment : Nat) : Request.idAt moment ≠ [] := by
  simp [Request.idAt, Integer.ofNat_ne_nil]

theorem Request.isUtf8_idAt (moment : Nat) : (Request.idAt moment).IsUtf8 := by
  refine Bytes.IsUtf8.append (by decide) (Bytes.isUtf8_of_ascii ?_)
  intro b hb
  have hdigit := isDigit_eq_true_iff.mp (Integer.isDigits_ofNat moment b hb)
  omega

/-- What a request of some settings has from them directly. -/
theorem BenchSettings.request_fields {b : BenchSettings} {moment : Nat} {names : List Bytes} {req : Request}
    (h : b.request moment names = (req, none)) :
    req.id = Request.idAt moment ∧ req.minDurationMs = b.minDurationMs ∧ req.timeLimitMs = b.timeLimitMs ∧
      req.memoryLimitKb = b.memoryLimitKb := by
  rw [request] at h
  split at h
  · cases congrArg Prod.fst h
    exact ⟨rfl, rfl, rfl, rfl⟩
  · cases congrArg Prod.fst h
    exact ⟨rfl, rfl, rfl, rfl⟩

theorem BenchSettings.isUtf8_request {b : BenchSettings} {moment : Nat} {names : List Bytes} {req : Request}
    (h : b.request moment names = (req, none)) (texts : ∀ p ∈ b.programList, p.IsUtf8) : req.IsUtf8 where
  id := by
    rw [(request_fields h).1]
    exact Request.isUtf8_idAt moment
  programs p hp := texts p (mem_programList_of_request h hp)

namespace Worker

/-- A request of the settings themselves stays as it is when it is filled in from them: a limit that is zero is filled in
with the zero that it came from, and there is always an id and a program. -/
theorem fill_request {b : BenchSettings} {moment : Nat} {names : List Bytes} {req : Request}
    (configured : b.programList ≠ []) (h : b.request moment names = (req, none)) (fresh : Bytes) :
    fill b fresh req = req := by
  obtain ⟨hid, hduration, htime, hmemory⟩ := BenchSettings.request_fields h
  have hprograms := BenchSettings.programList_request_ne_nil configured h
  have hne : req.id ≠ [] := by
    rw [hid]
    exact Request.idAt_ne_nil moment
  have hfills : Fills b fresh req req :=
    { id := .self fun hgap => absurd hgap hne
      programs := .self fun hgap => absurd hgap hprograms
      minDurationMs := .self fun _ => hduration
      timeLimitMs := .self fun _ => htime
      memoryLimitKb := .self fun _ => hmemory }
  exact (fills_iff.mp hfills).symm

end Worker

namespace CommandLine

variable {σ : Type}

/-- A peer that keeps what it is sent, the latest first. -/
def recorder (answers : Bus.Message → Except Bus.Error Bytes) : Bus.Peer (List Bus.Message) :=
  fun sent m => (answers m, m :: sent)

theorem payload_of_send {connection : Bus.Connection} {subject payload : Bytes} {m : Bus.Message}
    (h : connection.send subject payload = .ok m) : m.payload = payload := by
  unfold Bus.Connection.send at h
  split at h
  · cases h
  · split at h
    · cases h
    · split at h
      · cases h
      · cases h
        rfl

theorem sent_bus_submit {connection : Bus.Connection} {subject : Bytes} {req : Request} {m : Bus.Message}
    (taken : connection.send subject req.encode = .ok m) (answers : Bus.Message → Except Bus.Error Bytes)
    (patience : Int64) : (Bus.submit connection (recorder answers) subject req patience []).2 = [m] := by
  simp only [Bus.submit, taken, recorder]
  generalize (if 0 < patience then answers m else .error .timeout) = answer
  cases answer with
  | error e => rfl
  | ok answer =>
    simp only
    cases Report.decode answer with
    | none => rfl
    | some report => rfl

/-- The command `submit` sends its request once, if the bus takes it. -/
theorem sent_submit {c : Console σ} {p : Flags.Parsed} {s : Settings} {req : Request} {connection : Bus.Connection}
    {m : Bus.Message} (loaded : c.settings p = .ok s) (chosen : c.request s p.words = .ok req)
    (dialled : c.dial s = .ok connection) (taken : connection.send s.bus.requestSubject req.encode = .ok m)
    (answers : Bus.Message → Except Bus.Error Bytes) : (submit c (recorder answers) p []).2 = [m] := by
  have hsent := sent_bus_submit taken answers (patience p)
  simp only [submit, loaded, bind, Except.bind, chosen, dialled]
  generalize Bus.submit connection (recorder answers) s.bus.requestSubject req (patience p) [] = result at hsent ⊢
  obtain ⟨outcome, sent⟩ := result
  cases outcome with
  | error e => exact hsent
  | ok report => exact hsent

theorem run_eq_published {c : Console σ} {p : Flags.Parsed} {s : Settings} {req : Request} {connection : Bus.Connection}
    (loaded : c.settings p = .ok s) (chosen : c.request s p.words = .ok req) (published : publishes p = true)
    (dialled : c.dial s = .ok connection) :
    run c p =
      let answer := runRequest c s req (some (Bus.publishResult connection s.bus.resultSubject))
      { answer with log := connectedLine s :: answer.log } := by
  simp only [run, loaded, published, bind, Except.bind, chosen, dialled]
  rfl

namespace Service

/-! ### The service as a pool -/

theorem filled_handler (s : Service σ) (job : Worker.Job) (number : Nat) :
    (s.handler job).filled number job = Worker.fill s.settings.bench (Stamp.ofNanoseconds s.moment) job.request := rfl

theorem runner_handler (s : Service σ) (job : Worker.Job) (number : Nat) (req : Request) :
    (s.handler job).runner number req = (s.measure req).report := rfl

theorem responder_handler (s : Service σ) (job : Worker.Job) :
    (s.handler job).responder = some fun _ =>
      (Bus.respond s.connection job.reply
        (s.measure (Worker.fill s.settings.bench (Stamp.ofNanoseconds s.moment) job.request)).report).failure? := rfl

/-- All that the pool of the service does for a message. -/
theorem course_handler (s : Service σ) (req : Request) (reply : Bytes) :
    let filled := Worker.fill s.settings.bench (Stamp.ofNanoseconds s.moment) req
    let report := (s.measure filled).report
    (s.handler ⟨req, reply⟩).course 0 ⟨req, reply⟩ =
      [.received 0 filled.id, .called 0 filled, .returned 0 filled.id] ++
        if reply.isEmpty then []
        else [.responded 0 filled.id ⟨reply, report⟩ (Bus.respond s.connection reply report).failure?] := by
  rw [Worker.Handler.course, Worker.Handler.answer, responder_handler]
  dsimp only
  rw [runner_handler, filled_handler]

/-- A job of the service goes the same way under every schedule of its pool. -/
theorem handle_of_steps (s : Service σ) {req : Request} {reply : Bytes} {caller : Nat → Nat} {schedule : List Nat}
    {pool : Worker.Pool}
    (hsteps : (Worker.Pool.ofJobs caller [⟨req, reply⟩]).steps (s.handler ⟨req, reply⟩) schedule = some pool)
    (hidle : pool.idle = true) :
    s.handle req reply =
      let (t, seen) := pool.history.reverse.foldl perform (s, {})
      { t with handled := seen :: t.handled } := by
  rw [handle, Worker.Pool.history_drain, (Worker.Pool.regular_steps hsteps).history_eq hidle]

/-- A message that holds a request has it measured once, with what it leaves open filled in. The results that the bus takes
are published, and the report is sent once if anyone waits for it and the bus takes it. -/
theorem handle_eq (s : Service σ) (req : Request) (reply : Bytes) :
    let run := s.measure (Worker.fill s.settings.bench (Stamp.ofNanoseconds s.moment) req)
    let sent := (Bus.respond s.connection reply run.report).failure?.isNone
    ∃ log, s.handle req reply =
      { s with
        runner := run.state
        handled :=
          { published := ((run.journal.filterMap Event.result?).filter fun r => (s.post r).failure?.isNone).map fun r =>
              (s.settings.bus.resultSubject, r)
            replies := if !reply.isEmpty && sent then [(reply, run.report)] else []
            log } :: s.handled } := by
  rw [handle, Worker.Pool.history_drain, course_handler]
  dsimp only
  generalize Worker.fill s.settings.bench (Stamp.ofNanoseconds s.moment) req = filled
  generalize (Bus.respond s.connection reply (s.measure filled).report).failure? = failure
  cases reply.isEmpty with
  | true => exact ⟨_, rfl⟩
  | false => exact ⟨_, rfl⟩

end Service

/-- Settings that could be loaded, with programs in UTF-8, and names that are known make one request. The command `run` has
the runner measure it here, published or not, and prints the report. The command `submit` sends its message once, if the bus
takes it. Any pool with the same settings reads a job from that message; whatever jobs stand around it and whatever schedule
they follow, the pool can always be finished, and its runner is then called once for the job, with a request that is the
same in every field. And a service with the same settings that takes the message has its runner measure that request, and
sends the report of that run to whoever waits for it. -/
theorem submitted_as_run (c : Console σ) (p : Flags.Parsed) (s : Settings) (req : Request)
    (loaded : c.settings p = .ok s) (texts : ∀ q ∈ s.bench.programList, q.IsUtf8)
    (chosen : c.request s p.words = .ok req) (h : Worker.Handler) (same : h.settings = s.bench) (reply : Bytes) :
    let here (post : Option (Result → Bus.Posting)) : Runner.Run σ :=
      Runner.run (planOf s.bench.workDir c.interrupted post) req { stations := c.stations }
    let troubles (report : Report) : List Result := (report.results.getD []).filter fun r => r.status ≠ .success
    (publishes p = false →
      run c p = c.print (here none).report ((here none).journal.filterMap Event.line?) (troubles (here none).report)) ∧
    (∀ connection, publishes p = true → c.dial s = .ok connection →
      let post := Bus.publishResult connection s.bus.resultSubject
      let answer := c.print (here (some post)).report (journalLines post (here (some post)).journal)
        (troubles (here (some post)).report)
      run c p = { answer with log := connectedLine s :: answer.log }) ∧
    (∀ connection m answers, c.dial s = .ok connection → connection.send s.bus.requestSubject req.encode = .ok m →
      (submit c (recorder answers) p []).2 = [m] ∧ m.payload = req.encode) ∧
    (∃ job : Worker.Job,
      Bus.Delivery.request? { payload := req.encode, reply } = some (job.request, job.reply) ∧ job.reply = reply ∧
        ∀ caller jobs schedule pool number, jobs[number]? = some job →
          (Worker.Pool.ofJobs caller jobs).steps h schedule = some pool →
          (∃ rest done, pool.steps h rest = some done ∧ done.idle = true) ∧
            (pool.idle = true → (pool.actsOf number).filterMap Worker.Act.request? = [req] ∧
              (jobs = [job] → pool.seen = [req]))) ∧
    ∀ service : Service σ, service.settings = s →
      let there := Runner.run (planOf s.bench.workDir (fun _ => false) (some service.post)) req service.runner
      let after := service.receive { payload := req.encode, reply }
      after.runner = there.state ∧
        ∃ seen, after.handled = seen :: service.handled ∧
          seen.replies = if !reply.isEmpty && (Bus.respond service.connection reply there.report).failure?.isNone
            then [(reply, there.report)] else [] := by
  intro here troubles
  have hrequest := Console.request_eq_ok chosen
  have hfill := Worker.fill_request (Console.programList_ne_nil_of_settings loaded) hrequest
  have hread : Bus.Delivery.request? { payload := req.encode, reply } = some (req, reply) := by
    rw [Bus.Delivery.request?, Request.decode_encode (BenchSettings.isUtf8_request hrequest texts)]
    rfl
  refine ⟨run_eq_runRequest loaded chosen, fun connection => run_eq_published loaded chosen,
    fun connection m answers dialled taken => ⟨sent_submit loaded chosen dialled taken answers, payload_of_send taken⟩,
    ⟨⟨req, reply⟩, hread, rfl, ?_⟩, ?_⟩
  · intro caller jobs schedule pool number hjob hsteps
    obtain ⟨rest, hrest, hdone⟩ := Worker.Pool.follow_idle h pool.remaining pool 0 (Nat.le_refl _)
    have hregular := Worker.Pool.regular_steps hsteps
    refine ⟨⟨rest, _, hrest, hdone⟩, fun hidle => ⟨?_, ?_⟩⟩
    · rw [hregular.actsOf_eq hidle hjob, Worker.requests_course, Worker.Handler.filled, same, hfill]
    · rintro rfl
      rw [Worker.Pool.seen, hregular.history_eq hidle, Worker.requests_course, Worker.Handler.filled, same, hfill]
  · rintro service rfl there after
    obtain ⟨log, hhandle⟩ := service.handle_eq req reply
    rw [hfill] at hhandle
    have hafter : after = service.handle req reply := by simp only [after, Service.receive, hread]
    rw [hafter, hhandle]
    exact ⟨rfl, _, rfl, rfl⟩

theorem stdout_print (c : Console σ) (report : Report) (lines : List Bytes) (troubles : List Result) :
    (c.print report lines troubles).stdout = (Table.write c.refuses report).text := by
  rw [Console.print]
  cases (Table.write c.refuses report).error with
  | some text => rfl
  | none => cases hasFailed report <;> rfl

theorem eq_ok_of_toOption {ε α : Type} {x : Except ε α} {a : α} (h : x.toOption = some a) : x = .ok a := by
  cases x with
  | error e => cases h
  | ok b => exact congrArg Except.ok (Option.some.inj h)

/-- Three programs without a time limit, one of them twice and one without an executor here, sent to where no limit is known
either. A pool has another job before this one, and a service has the same executors as the command here. -/
theorem submitted_as_run_several :
    let station : Station Nat :=
      { kind := utf8 "direct", executor := Measure.tape (fun _ => .ok { exitCode := 3 }) id, state := 0 }
    let c : Console Nat := { moment := 1700000000000000000, stations := [station] }
    let p : Flags.Parsed :=
      { given := [(utf8 "time-limit", .int 0)], words := [utf8 "fib/binary", utf8 "fib/inprocess", utf8 "fib/binary"] }
    let req : Request :=
      { id := utf8 "bench-1700000000000000000"
        programs := some (defaultPrograms.reverse ++ defaultPrograms.tail)
        minDurationMs := 1000 }
    let s : Settings := { Settings.unchanged with bench := { Settings.unchanged.bench with timeLimitMs := 0 } }
    let h : Worker.Handler :=
      { settings := s.bench, freshId := fun _ => utf8 "fresh", runner := fun _ _ => {}, responder := none }
    let service : Service Nat := { settings := s, connection := {}, runner := { stations := [station] }, moment := 0 }
    let delivery : Bus.Delivery := { payload := req.encode, reply := utf8 "_INBOX.1" }
    let here := Runner.run (planOf s.bench.workDir c.interrupted none) req { stations := [station] }
    (run c p).stdout = (Table.write c.refuses here.report).text ∧
      (submit c (recorder fun _ => .error .timeout) p []).2 = [⟨utf8 "bench.requested", req.encode⟩] ∧
      (∃ job : Worker.Job, delivery.request? = some (job.request, job.reply) ∧
        ∃ schedule pool, (Worker.Pool.ofJobs (fun _ => 0) [{ job with request := {} }, job]).steps h schedule = some pool ∧
          pool.idle = true ∧ (pool.actsOf 1).filterMap Worker.Act.request? = [req]) ∧
      (service.receive delivery).runner =
        (Runner.run (planOf s.bench.workDir (fun _ => false) (some service.post)) req { stations := [station] }).state := by
  intro station c p req s h service delivery here
  have loaded : c.settings p = .ok s := by
    have hload : (c.settings p).toOption = some s := by decide +kernel
    exact eq_ok_of_toOption hload
  have texts : ∀ q ∈ s.bench.programList, q.IsUtf8 := by
    simp only [s, Settings.unchanged, BenchSettings.programList, Option.getD_some, defaultPrograms, List.forall_mem_cons]
    exact ⟨⟨by decide, by decide, by decide, by decide⟩, ⟨by decide, by decide, by decide, by decide⟩, List.forall_mem_nil _⟩
  have chosen : c.request s p.words = .ok req := by
    have hchosen : (c.request s p.words).toOption = some req := by decide +kernel
    exact eq_ok_of_toOption hchosen
  obtain ⟨hrun, -, hsent, ⟨job, hread, -, hpool⟩, hservice⟩ :=
    submitted_as_run c p s req loaded texts chosen h rfl (utf8 "_INBOX.1")
  have hshort : req.encode.length ≤ 1048576 := by decide +kernel
  refine ⟨?_, (hsent {} _ _ rfl ?_).1, ⟨job, hread, ?_⟩, (hservice service rfl).1⟩
  · rw [hrun rfl, stdout_print]
  · rw [Bus.Connection.send, if_neg (by decide), if_neg (by decide), if_neg (by simpa using hshort)]
    rfl
  · obtain ⟨schedule, pool, hsteps, hidle⟩ := (hpool (fun _ => 0) [{ job with request := {} }, job] [] _ 1 rfl rfl).1
    exact ⟨schedule, pool, hsteps, hidle, ((hpool _ _ schedule pool 1 rfl hsteps).2 hidle).1⟩

end CommandLine

end Stopwatch
