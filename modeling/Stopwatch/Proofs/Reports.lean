import Stopwatch.Proofs.FloatLiterals
import Stopwatch.Proofs.Messages

/-!
Reports over the wire. A report whose texts are UTF-8 and whose numbers are finite goes out, and comes back with the same
results in the same order; only an empty list of failed programs comes back as none.
-/

namespace Stopwatch

/-- A number that has a literal. -/
def Double.isFinite : Double → Bool
  | .finite .. => true
  | _ => false

/-- A result that can go out and come back. -/
structure Result.IsSendable (r : Result) : Prop where
  requestId : r.requestId.IsUtf8
  program : r.program.IsUtf8
  status : r.status.text.IsUtf8
  output : r.output.IsUtf8
  error : r.error.IsUtf8
  meanMs : (Double.ofFloat r.meanMs).isFinite = true
  minMs : (Double.ofFloat r.minMs).isFinite = true
  maxMs : (Double.ofFloat r.maxMs).isFinite = true

/-- A report that can go out and come back. -/
structure Report.IsSendable (r : Report) : Prop where
  requestId : r.requestId.IsUtf8
  results : ∀ x ∈ r.results.getD [], x.IsSendable
  scoreMs : (Double.ofFloat r.scoreMs).isFinite = true
  failed : ∀ name ∈ r.failed.getD [], name.IsUtf8

/-- Results with the same fields, a status being the word for it. -/
structure Result.Alike (a b : Result) : Prop where
  requestId : a.requestId = b.requestId
  program : a.program = b.program
  status : a.status.text = b.status.text
  samples : a.samples = b.samples
  meanMs : a.meanMs = b.meanMs
  minMs : a.minMs = b.minMs
  maxMs : a.maxMs = b.maxMs
  peakMemoryKb : a.peakMemoryKb = b.peakMemoryKb
  output : a.output = b.output
  error : a.error = b.error

theorem Status.text_ofText (s : Bytes) : (Status.ofText s).text = s := by
  rw [Status.ofText]
  cases hfind : Status.named.find? fun st => st.text == s with
  | none => rfl
  | some st => simpa using List.find?_some hfind

namespace Wire

/-! ### Numbers -/

/-- The value of a finite number. -/
def numberOf (x : Float) : Value :=
  match Double.ofFloat x with
  | .finite negative m e => .number (finiteLiteral negative m e)
  | _ => .null

section
variable {x : Float} (h : (Double.ofFloat x).isFinite = true)
include h

theorem exists_parts : ∃ negative m e, Double.ofFloat x = .finite negative m e := by
  cases hx : Double.ofFloat x with
  | finite negative m e => exact ⟨negative, m, e, rfl⟩
  | nan => rw [hx] at h; cases h
  | infinite negative => rw [hx] at h; cases h

theorem ofFloat_eq : ofFloat x = .ok (numberOf x) := by
  obtain ⟨negative, m, e, hx⟩ := exists_parts h
  rw [ofFloat, numberOf, hx]

theorem portable_numberOf (depth : Nat) : Portable depth (numberOf x) := by
  obtain ⟨negative, m, e, hx⟩ := exists_parts h
  rw [numberOf, hx]
  exact .number (read_finiteLiteral hx).1

theorem floatOver_numberOf (old : Float) : floatOver old (numberOf x) = some x := by
  obtain ⟨negative, m, e, hx⟩ := exists_parts h
  rw [numberOf, hx, floatOver, (read_finiteLiteral hx).2]
  rfl

end

/-! ### Results -/

/-- The table of a result. -/
def resultTable (r : Result) : Value :=
  .table [(utf8 "requestId", .text r.requestId), (utf8 "program", .text r.program),
    (utf8 "status", .text r.status.text), (utf8 "samples", ofInt r.samples), (utf8 "meanMs", numberOf r.meanMs),
    (utf8 "minMs", numberOf r.minMs), (utf8 "maxMs", numberOf r.maxMs), (utf8 "peakMemoryKb", ofInt r.peakMemoryKb),
    (utf8 "output", .text r.output), (utf8 "error", .text r.error)]

/-- A result as it comes back. -/
def reread (r : Result) : Result := { r with status := .ofText r.status.text }

theorem alike_reread (r : Result) : r.Alike (reread r) :=
  ⟨rfl, rfl, (Status.text_ofText _).symm, rfl, rfl, rfl, rfl, rfl, rfl, rfl⟩

section
variable {r : Result} (h : r.IsSendable)
include h

theorem ofResult_eq : ofResult r = .ok (resultTable r) := by
  rw [ofResult, ofFloat_eq h.meanMs, ofFloat_eq h.minMs, ofFloat_eq h.maxMs]
  rfl

theorem portable_resultTable : Portable 1 (resultTable r) := by
  refine .table ?_ ?_
  · simp only [List.forall_mem_cons]
    exact ⟨by decide, by decide, by decide, by decide, by decide, by decide, by decide, by decide, by decide, by decide,
      nofun⟩
  · simp only [List.forall_mem_cons]
    exact ⟨.text h.requestId, .text h.program, .text h.status, portable_ofInt _ _, portable_numberOf h.meanMs _,
      portable_numberOf h.minMs _, portable_numberOf h.maxMs _, portable_ofInt _ _, .text h.output, .text h.error, nofun⟩

theorem tableOver_resultTable : tableOver resultEntry {} (resultTable r) = some (reread r) := by
  simp [tableOver, resultTable, entriesOver, textOver, statusOver, intOver_ofInt, floatOver_numberOf h.meanMs,
    floatOver_numberOf h.minMs, floatOver_numberOf h.maxMs, reread]

end

/-! ### Reports -/

theorem mapM_ofResult {rs : List Result} (h : ∀ r ∈ rs, r.IsSendable) :
    rs.mapM ofResult = .ok (rs.map resultTable) := by
  induction rs with
  | nil => rfl
  | cons r rs ih =>
    rw [List.forall_mem_cons] at h
    rw [List.mapM_cons, ofResult_eq h.1, ih h.2]
    rfl

/-- The table of a report. -/
def reportTable (r : Report) : Value :=
  .table ([(utf8 "requestId", .text r.requestId), (utf8 "results", ofList resultTable r.results),
    (utf8 "scoreMs", numberOf r.scoreMs)] ++ failedEntry r.failed)

/-- A report as it comes back. -/
def rereadReport (r : Report) : Report :=
  { r with results := r.results.map (List.map reread), failed := someIfAny (r.failed.getD []) }

/-- What the failed programs leave in a draft without any. -/
theorem entriesOver_failedEntry (failed : Option (List Bytes)) {d : ReportDraft} (hd : d.failed = none) :
    (entriesOver ReportDraft.entry (failedEntry failed) d).map ReportDraft.done
      = some { d.done with failed := someIfAny (failed.getD []) } := by
  rcases failed with _ | (_ | ⟨name, rest⟩)
  · simp [failedEntry, entriesOver, ReportDraft.done, hd, someIfAny]
  · simp [failedEntry, entriesOver, ReportDraft.done, hd, someIfAny]
  · have hlist : listOver [] textOver none (ofList .text (some (name :: rest)))
        = some (some { items := (name :: rest).map id }) := listOver_ofList fun x _ => rfl
    rw [ofList, List.map_id] at hlist
    simp only [failedEntry, entriesOver, ReportDraft.entry_failed, hd, hlist, Option.map_some, Option.bind_some, ReportDraft.done]
    rfl

section
variable {r : Report} (h : r.IsSendable)
include h

theorem ofReport_eq : ofReport r = .ok (reportTable r) := by
  have hall := h.results
  rw [ofReport, ofFloat_eq h.scoreMs, reportTable]
  cases hr : r.results with
  | none => rfl
  | some rs =>
    rw [hr] at hall
    have hmap : rs.mapM ofResult = .ok (rs.map resultTable) := mapM_ofResult hall
    simp only [hmap]
    rfl

theorem portable_failedEntry : ∀ e ∈ failedEntry r.failed, e.1.IsUtf8 ∧ Portable 2 e.2 := by
  have hall := h.failed
  rcases hfailed : r.failed with _ | (_ | ⟨name, rest⟩)
  · nofun
  · nofun
  · rw [hfailed] at hall
    have hlist : Portable 2 (ofList .text (some (name :: rest))) := portable_ofList fun s hs => .text (hall s hs)
    exact List.forall_mem_singleton.mpr ⟨show (utf8 "failed").IsUtf8 by decide, hlist⟩

theorem portable_reportTable : Portable 3 (reportTable r) := by
  refine .table ?_ ?_
  · simp only [List.forall_mem_append, List.forall_mem_cons]
    exact ⟨⟨by decide, by decide, by decide, nofun⟩, fun e he => (portable_failedEntry h e he).1⟩
  · simp only [List.forall_mem_append, List.forall_mem_cons]
    exact ⟨⟨.text h.requestId, portable_ofList fun x hx => portable_resultTable (h.results x hx),
      portable_numberOf h.scoreMs _, nofun⟩, fun e he => (portable_failedEntry h e he).2⟩

theorem tableOver_reportTable :
    (tableOver ReportDraft.entry {} (reportTable r)).map ReportDraft.done = some (rereadReport r) := by
  have hlist : listOver {} (tableOver resultEntry) none (ofList resultTable r.results) = _ :=
    listOver_ofList fun x hx => tableOver_resultTable (h.results x hx)
  simp only [tableOver, reportTable, List.cons_append, List.nil_append, entriesOver, ReportDraft.entry_requestId,
    ReportDraft.entry_results, ReportDraft.entry_scoreMs, textOver, hlist, floatOver_numberOf h.scoreMs, Option.map_some,
    Option.bind_some]
  rw [entriesOver_failedEntry r.failed rfl, ReportDraft.done, Option.map_map]
  rfl

end

end Wire

namespace Wire

/-- A report goes out as the text of its table, and is read back from there. -/
theorem decode_report {r : Report} (h : r.IsSendable) :
    ∃ message, r.encode = .ok message ∧ Value.parse message = some (reportTable r) ∧
      Report.decode message = some (rereadReport r) := by
  have hparse := parse_render (portable_reportTable h) (by decide)
  have hdone := tableOver_reportTable h
  refine ⟨(reportTable r).render, by rw [Report.encode, ofReport_eq h]; rfl, hparse, ?_⟩
  simp only [Report.decode, hparse, bind, Option.bind_some]
  rwa [Option.map_eq_bind] at hdone

theorem alike_results (results : Option (List Result)) :
    Option.Rel (List.Forall₂ Result.Alike) results (results.map (List.map reread)) := by
  cases results with
  | none => exact .none
  | some rs =>
    refine .some ?_
    rw [List.forall₂_map_right_iff, List.forall₂_same]
    exact fun r _ => alike_reread r

/-- Messages are texts of tables and are read back. A request comes back as it was, absent lists apart from empty ones;
so does a report, but for an empty list of failed programs, which comes back as none. -/
theorem messages_read_back :
    (∀ r : Request, r.IsUtf8 → Value.parse r.encode = some (ofRequest r) ∧ Request.decode r.encode = some r) ∧
    (∀ r : Report, r.IsSendable → ∃ table message got,
      ofReport r = .ok table ∧ r.encode = .ok message ∧ Value.parse message = some table ∧
      Report.decode message = some got ∧ got.requestId = r.requestId ∧
      Option.Rel (List.Forall₂ Result.Alike) r.results got.results ∧ got.scoreMs = r.scoreMs ∧
      got.failed = someIfAny (r.failed.getD [])) := by
  refine ⟨fun r h => ⟨Request.parse_encode h, Request.decode_encode h⟩, fun r h => ?_⟩
  obtain ⟨message, hencode, hparse, hdecode⟩ := decode_report h
  exact ⟨reportTable r, message, rereadReport r, ofReport_eq h, hencode, hparse, hdecode, rfl, alike_results r.results,
    rfl, rfl⟩

/-- Texts that have to be escaped, and lists that are absent or empty. -/
def oddRequest : Request :=
  { id := utf8 "\"\\\n\u0001<>&\u2028",
    programs := some [{ command := none }, { command := some [] }],
    minDurationMs := Int64.minValue }

def oddRequestText : Bytes :=
  utf8 "\x7b\"id\":\"\\\"\\\\\\n\\u0001\\u003c\\u003e\\u0026\\u2028\",\"programs\":[" ++
    utf8 "\x7b\"name\":\"\",\"executor\":\"\",\"command\":null,\"expectOutput\":\"\"\x7d," ++
    utf8 "\x7b\"name\":\"\",\"executor\":\"\",\"command\":[],\"expectOutput\":\"\"\x7d]," ++
    utf8 "\"minDurationMs\":-9223372036854775808,\"timeLimitMs\":0,\"memoryLimitKb\":0\x7d"

/-- Small and large numbers, and an empty list of failed programs. -/
def oddReport : Report :=
  { results := some [{ status := .success, meanMs := 0.1, minMs := 1e-9, maxMs := 1e21 }],
    scoreMs := -0.0,
    failed := some [] }

def oddReportText : Bytes :=
  utf8 "\x7b\"requestId\":\"\",\"results\":[\x7b\"requestId\":\"\",\"program\":\"\",\"status\":\"success\"," ++
    utf8 "\"samples\":0,\"meanMs\":0.1,\"minMs\":1e-9,\"maxMs\":1e+21,\"peakMemoryKb\":0,\"output\":\"\",\"error\":\"\"\x7d]," ++
    utf8 "\"scoreMs\":-0\x7d"

theorem messages_read_back_odd :
    oddRequest.encode = oddRequestText ∧ Request.decode oddRequestText = some oddRequest ∧
    ∃ got, Report.decode oddReportText = some got ∧
      Option.Rel (List.Forall₂ Result.Alike) oddReport.results got.results ∧ got.scoreMs = -0.0 ∧ got.failed = none := by
  have hutf8 : oddRequest.IsUtf8 := by
    refine ⟨by decide +kernel, ?_⟩
    simp only [Request.programList, oddRequest, Option.getD_some, List.forall_mem_cons]
    exact ⟨⟨by decide, by decide, nofun, by decide⟩, ⟨by decide, by decide, nofun, by decide⟩, nofun⟩
  have hsendable : oddReport.IsSendable := by
    refine ⟨by decide, ?_, by decide, nofun⟩
    simp only [oddReport, Option.getD_some, List.forall_mem_cons]
    exact ⟨⟨by decide, by decide, by decide, by decide, by decide, by decide, by decide, by decide⟩, nofun⟩
  have hrequest : oddRequest.encode = oddRequestText := by decide +kernel
  have hreport : oddReport.encode.toOption = some oddReportText := by decide +kernel
  obtain ⟨_, message, got, -, hencode, -, hdecode, -, hresults, hscore, hfailed⟩ := messages_read_back.2 oddReport hsendable
  rw [hencode] at hreport
  have hmessage : message = oddReportText := Option.some.inj hreport
  rw [hmessage] at hdecode
  exact ⟨hrequest, hrequest ▸ (messages_read_back.1 oddRequest hutf8).2, got, hdecode, hresults, hscore, hfailed⟩

end Wire

end Stopwatch
