import Stopwatch.Bus.Connection
import Stopwatch.Proofs.Measurement
import Stopwatch.Proofs.Reports
import Stopwatch.Proofs.SampleRange
import Stopwatch.Proofs.SandboxVerdict

/-!
Finite times, from a meta file to a reply. The sandbox may tell any numeral as the time of a run, but also a word for an
infinite number or for no number, and these words are taken. A result or a report that holds such a time has no encoding,
so nothing goes out for it.
-/

namespace Stopwatch

open Float.Model Float.Model.UnpackedFloat Rounding

/-- A number that can be sent. -/
def IsFinite (x : Float) : Prop := (Double.ofFloat x).isFinite = true

instance (x : Float) : Decidable (IsFinite x) := inferInstanceAs (Decidable (_ = true))

namespace Double

/-! ### Kinds under arithmetic -/

theorem isFinite_iff {x : Float} : IsFinite x ↔ x.isNaN = false ∧ x.isInf = false := by
  obtain ⟨u, hu, rfl⟩ := exists_kind x
  cases hu with
  | nan => decide
  | infinite negative => cases negative <;> decide
  | zero negative => cases negative <;> decide
  | @finite negative m e hc =>
    have hnan : (assemble (.finite (signOf negative) m e hc.pos)).isNaN
        = (Float.Model.pack (.finite (signOf negative) m e hc.pos)).unpack.isNaN := rfl
    rw [IsFinite, ofFloat_assemble hc, hnan, unpack_pack_finite hc, isInf_assemble hc]
    exact ⟨fun _ => ⟨rfl, rfl⟩, fun _ => rfl⟩

/-- Only what is no number is put together to no number. -/
theorem isNaN_assemble {u : UnpackedFloat} (h : u ≠ .notANumber) : (assemble u).isNaN = false := by
  rw [← Bool.not_eq_true, isNaN_iff_eq]
  intro heq
  have hbits : (UnpackedFloat.pack Format.binary64 u).toNat = 2047 * 2 ^ 52 + 2 ^ 51 :=
    congrArg (fun x : Float => x.toBits.toNat) heq
  cases u with
  | notANumber => exact h rfl
  | infinity sign => cases sign <;> exact absurd hbits (by decide)
  | zero sign => cases sign <;> exact absurd hbits (by decide)
  | finite sign m e hpos =>
    have hsign : sign.toBitVec.toNat < 2 := sign.toBitVec.isLt
    simp only [UnpackedFloat.pack, biased_eq e] at hbits
    split at hbits
    · have hmax : (packedInfinity Format.binary64 sign).toNat = sign.toBitVec.toNat * 2 ^ 63 + 2047 * 2 ^ 52 + 0 :=
        toNat_packComponents sign (-1#11) 0#52
      omega
    · next hlow =>
      have hlow' : ¬ 2 ^ 11 ≤ (e + 1075).toNat + 1 := hlow
      split at hbits
      · rw [toNat_packComponents, BitVec.toNat_ofNat] at hbits
        have := (BitVec.ofNat 52 m).isLt
        omega
      · rw [toNat_packComponents] at hbits
        have := (BitVec.ofNat 52 m).isLt
        have h0 : (0#11).toNat = 0 := rfl
        omega

theorem roundWithAccuracy_ne_nan (sign : Sign) (m : Nat) (e : Int) (accuracy : Accuracy) :
    roundWithAccuracy Format.binary64 sign m e accuracy ≠ .notANumber := by
  simp only [roundWithAccuracy]
  split <;> exact fun h => by cases h

theorem mul_assemble {u v : UnpackedFloat} (hu : IsKind u) (hv : IsKind v) :
    assemble u * assemble v = assemble (mul Format.binary64 u v) := by
  have hparts : assemble u * assemble v
      = assemble (mul Format.binary64 (Float.Model.pack u).unpack (Float.Model.pack v).unpack) := rfl
  rw [hparts, hu.unpack_pack, hv.unpack_pack]

theorem div_assemble {u v : UnpackedFloat} (hu : IsKind u) (hv : IsKind v) :
    assemble u / assemble v = assemble (div Format.binary64 u v) := by
  have hparts : assemble u / assemble v
      = assemble (div Format.binary64 (Float.Model.pack u).unpack (Float.Model.pack v).unpack) := rfl
  rw [hparts, hu.unpack_pack, hv.unpack_pack]

/-- The exact conversion gives a number. -/
theorem model_ofScientific_ne_nan (m : Nat) (e : Int) :
    UnpackedFloat.ofScientific Format.binary64 m e ≠ .notANumber := by
  intro h
  rw [UnpackedFloat.ofScientific] at h
  split at h
  · cases h
  split at h
  · cases h
  split at h
  · cases h
  split at h
  · exact roundWithAccuracy_ne_nan _ _ _ _ h
  · exact roundWithAccuracy_ne_nan _ _ _ _ h

/-- A decimal literal is a number, if perhaps an infinite one. -/
theorem isNaN_ofScientific (m : Nat) (negative : Bool) (e : Nat) : (Float.ofScientific m negative e).isNaN = false := by
  rw [Float.ofScientific]
  split
  · next hfast =>
    have hsize : e < Float.exactlyRepresentablePowersOfTen.size := Nat.lt_succ_of_le hfast.2
    obtain ⟨m₂, e₂, hc₂, -, -, hpower⟩ := isExactly_powerOfTen hsize
    have hkind : IsKind (.finite .positive m₂ e₂ hc₂.pos) := .finite false hc₂
    rcases Nat.eq_zero_or_pos m with rfl | hpos
    · have hzero : (0 : Nat).toUInt64.toFloat = assemble (.zero (signOf false)) := rfl
      simp only [hpower, hzero, div_assemble (.zero false) hkind, mul_assemble (.zero false) hkind]
      split
      · exact isNaN_assemble (u := .zero .positive) fun h => by cases h
      · exact isNaN_assemble (u := .zero .positive) fun h => by cases h
    · obtain ⟨m₁, e₁, hc₁, -, -, hx⟩ := isExactly_toFloat hpos hfast.1
      have hkind' : IsKind (.finite .positive m₁ e₁ hc₁.pos) := .finite false hc₁
      simp only [hpower, hx, div_assemble hkind' hkind, mul_assemble hkind' hkind]
      split
      · exact isNaN_assemble (roundWithAccuracy_ne_nan _ _ _ _)
      · exact isNaN_assemble (roundWithAccuracy_ne_nan _ _ _ _)
  · exact isNaN_assemble (model_ofScientific_ne_nan _ _)

theorem isFinite_neg {x : Float} (h : IsFinite x) : IsFinite (-x) := by
  obtain ⟨u, hu, rfl⟩ := exists_kind x
  have hneg : -assemble u = assemble (Float.Model.pack u).unpack.neg := rfl
  rw [hneg, hu.unpack_pack]
  cases hu with
  | nan => exact absurd h (by decide)
  | infinite negative => cases negative <;> exact absurd h (by decide)
  | zero negative => cases negative <;> decide
  | @finite negative m e hc =>
    have hother : (UnpackedFloat.finite (signOf negative) m e hc.pos).neg = .finite (signOf !negative) m e hc.pos := by
      cases negative <;> rfl
    rw [hother, IsFinite, ofFloat_assemble hc]
    rfl

/-- Milliseconds are finite only of finite seconds. -/
theorem isFinite_of_mul_thousand {x : Float} (h : IsFinite (x * 1000)) : IsFinite x := by
  obtain ⟨u, hu, rfl⟩ := exists_kind x
  cases hu with
  | nan => exact absurd h (by decide)
  | infinite negative => cases negative <;> exact absurd h (by decide)
  | zero negative => cases negative <;> decide
  | finite negative hc =>
    rw [IsFinite, ofFloat_assemble hc]
    rfl

/-- Seconds may be finite and their milliseconds not. -/
example : IsFinite 1e306 ∧ ¬ IsFinite (1e306 * 1000) := by decide +kernel

end Double

/-! ### Numbers in texts -/

namespace FloatReader

/-- The words for infinite numbers, perhaps with a sign, and for no number, letters of either case. -/
def IsWord (s : Bytes) : Prop :=
  (Integer.unsigned s).map Ascii.lower ∈ [utf8 "inf", utf8 "infinity"] ∨ s.map Ascii.lower = utf8 "nan"

instance (s : Bytes) : Decidable (IsWord s) := inferInstanceAs (Decidable (_ ∨ _))

theorem isWord_of_word? {s : Bytes} {x : Float} (h : word? s = some x) : IsWord s ∧ ¬ IsFinite x := by
  simp only [word?] at h
  split at h
  · next hword =>
    cases h
    refine ⟨.inl (by simpa using hword), ?_⟩
    generalize decide (s.head? = some Ascii.minus) = negative
    cases negative <;> decide
  · split at h
    · next hnan =>
      cases h
      exact ⟨.inr (by simpa using hnan), by decide⟩
    · cases h

theorem not_isWord_of_word? {s : Bytes} (h : word? s = none) : ¬ IsWord s := by
  intro hword
  simp only [word?] at h
  split at h
  · cases h
  · next hinfinite =>
    split at h
    · cases h
    · next hnan =>
      rcases hword with hbody | hbody
      · exact hinfinite (by simpa using hbody)
      · exact hnan (by simpa using hbody)

theorem isNaN_ofDecimal (m : Nat) (e : Int) : (ofDecimal m e).isNaN = false := by
  rw [ofDecimal]
  split
  · decide
  split
  · decide
  · exact Double.isNaN_ofScientific _ _ _

theorem isNaN_ofBinary (m : Nat) (e : Int) : (ofBinary m e).isNaN = false := by
  rw [ofBinary]
  split
  · decide
  split
  · decide
  split
  · exact Double.isNaN_ofScientific _ _ _
  · exact Double.isNaN_ofScientific _ _ _

/-- Digits make a number. -/
theorem isNaN_of_sizeIn {hex : Bool} {s : Bytes} {x : Float} (h : sizeIn hex s = some x) : x.isNaN = false := by
  have hscaled : ∀ (m : Nat) (e e' : Int), (if hex then ofBinary m e else ofDecimal m e').isNaN = false := by
    intro m e e'
    split
    · exact isNaN_ofBinary m e
    · exact isNaN_ofDecimal m e'
  rw [sizeIn] at h
  generalize digits _ _ _ = found at h
  obtain ⟨scan, rest⟩ := found
  simp only at h
  split at h
  · cases h
  · cases rest with
    | nil =>
      by_cases hhex : hex = true
      · simp only [if_pos hhex] at h
        cases h
      · simp only [if_neg hhex] at h
        cases h
        exact isNaN_ofDecimal _ _
    | cons mark after =>
      by_cases hmark : (Ascii.lower mark == (if hex then 0x70 else 0x65)) = true
      · simp only [if_pos hmark] at h
        split at h
        · cases h
          exact hscaled _ _ _
        · cases h
      · simp only [if_neg hmark] at h
        cases h

/-- What is read is finite, unless it was a word. -/
theorem isFinite_read_iff {s : Bytes} {x : Float} (h : read s = .ok x) : IsFinite x ↔ ¬ IsWord s := by
  rw [read] at h
  split at h
  · next hword =>
    cases h
    obtain ⟨hs, hx⟩ := isWord_of_word? hword
    exact ⟨fun hfinite => absurd hfinite hx, fun hs' => absurd hs hs'⟩
  · next hnone =>
    split at h
    · cases h
    · next y hsize =>
      split at h
      · cases h
      · next hinf =>
        have hy : IsFinite y := Double.isFinite_iff.mpr ⟨isNaN_of_sizeIn (size?_eq _ ▸ hsize), by simpa using hinf⟩
        have hx : IsFinite x := by
          cases h
          split
          · exact Double.isFinite_neg hy
          · exact hy
        exact ⟨fun _ => not_isWord_of_word? hnone, fun _ => hx⟩

end FloatReader

/-! ### The range of finite samples -/

theorem Stats.isFinite_range_iff {values : List Float} :
    IsFinite (range values).1 ∧ IsFinite (range values).2 ↔ ∀ v ∈ values, IsFinite v := by
  rcases eq_or_ne values [] with rfl | hne
  · exact ⟨fun _ => List.forall_mem_nil _, fun _ => by decide⟩
  obtain ⟨⟨hlow, hfirst⟩, hhigh, hlast⟩ := isFirst_range hne
  constructor
  · rintro ⟨hleast, hmost⟩ v hv
    rw [Double.isFinite_iff] at hleast hmost
    have hleast' : (range values).1 ≠ lowest := fun h => absurd (h ▸ hleast.2) (by decide)
    have hmost' : (range values).2 ≠ highest := fun h => absurd (h ▸ hmost.2) (by decide)
    obtain ⟨hv', hnumber⟩ := (hfirst v hv).resolve_left hleast'
    obtain ⟨hv'', -⟩ := (hlast v hv).resolve_left hmost'
    refine Double.isFinite_iff.mpr ⟨(hnumber.resolve_left (by rw [hleast.1]; exact Bool.false_ne_true)).1, ?_⟩
    rw [← Bool.not_eq_true, Double.isInf_iff_eq]
    rintro ⟨negative, rfl⟩
    cases negative with
    | true => exact hv' rfl
    | false => exact hv'' rfl
  · intro hall
    exact ⟨hall _ hlow, hall _ hhigh⟩

/-! ### What can be sent -/

namespace Wire

theorem exists_ofFloat_iff {x : Float} : (∃ v, ofFloat x = .ok v) ↔ IsFinite x := by
  rw [ofFloat, IsFinite]
  cases Double.ofFloat x <;> simp [Double.isFinite]

theorem exists_ofResult_iff {r : Result} :
    (∃ v, ofResult r = .ok v) ↔ IsFinite r.meanMs ∧ IsFinite r.minMs ∧ IsFinite r.maxMs := by
  simp only [ofResult, exists_ok_bind_iff, ← exists_ofFloat_iff]
  simp

theorem exists_mapM_ofResult_iff {rs : List Result} :
    (∃ vs, rs.mapM ofResult = .ok vs) ↔ ∀ r ∈ rs, ∃ v, ofResult r = .ok v := by
  induction rs with
  | nil => simp [pure, Except.pure]
  | cons r rs ih =>
    rw [List.mapM_cons, exists_ok_bind_iff, List.forall_mem_cons, ← ih]
    simp only [exists_ok_bind_iff]
    simp [pure, Except.pure]

theorem exists_ofReport_iff {r : Report} :
    (∃ v, ofReport r = .ok v) ↔ (∀ x ∈ r.results.getD [], ∃ v, ofResult x = .ok v) ∧ IsFinite r.scoreMs := by
  rw [ofReport]
  cases hr : r.results with
  | none =>
    simp only [exists_ok_bind_iff]
    simp [exists_ofFloat_iff]
  | some rs =>
    simp only [exists_ok_bind_iff]
    simp [exists_ok_map_iff, exists_mapM_ofResult_iff, exists_ofFloat_iff]

end Wire

theorem exists_encode_iff {r : Result} :
    (∃ payload, r.encode = .ok payload) ↔ IsFinite r.meanMs ∧ IsFinite r.minMs ∧ IsFinite r.maxMs := by
  rw [Result.encode.eq_def, exists_ok_map_iff, Wire.exists_ofResult_iff]

theorem exists_encode_report_iff {r : Report} :
    (∃ payload, r.encode = .ok payload) ↔
      (∀ x ∈ r.results.getD [], ∃ payload, x.encode = .ok payload) ∧ IsFinite r.scoreMs := by
  simp only [Report.encode, Result.encode, exists_ok_map_iff, Wire.exists_ofReport_iff]

/-- Where its payload is taken, a message goes out exactly if there is one. -/
theorem Bus.exists_posted_iff {c : Connection} {subject : Bytes} {encoded : Except Wire.Unsupported Bytes}
    (takes : ∀ payload, encoded = .ok payload → ∃ m, c.send subject payload = .ok m)
    {unencoded unsent : Error → Bytes} {sent : Bytes} :
    (∃ m, (post c subject encoded unencoded unsent sent).outcome = .ok m) ↔ ∃ payload, encoded = .ok payload := by
  cases encoded with
  | error u => simp [post]
  | ok payload =>
    obtain ⟨m, hm⟩ := takes payload rfl
    simp [post, hm]

/-! ### Times of a measurement -/

namespace Runner

section
variable {σ : Type} {plan : RunPlan} {req : Request} {p : Program} {s : State σ} {station : Station σ}

theorem times_progressAt_rejected {n : Nat} (h : ¬ Measure.Accepted p.expectOutput (outcome plan req p s station n)) :
    (progressAt plan req p s station n).times.reverse =
      (Measure.samplesOf (outcomes plan req p s station n)).map Sample.timeMs := by
  have hnote : ∀ (p : Measure.Progress) (o : Except Fault Sample), (p.note o).times = p.times := by
    rintro p (_ | _) <;> rfl
  rw [progressAt, Measure.Progress.close, if_neg h, hnote, Measure.times_takes, List.append_nil, List.reverse_reverse]
  rfl

theorem mem_samplesOf_outcomes {n : Nat} {sample : Sample} :
    sample ∈ Measure.samplesOf (outcomes plan req p s station n) ↔
      ∃ i < n, outcome plan req p s station i = .ok sample := by
  have hok : ∀ o : Except Fault Sample, o.toOption = some sample ↔ o = .ok sample := by
    rintro (_ | _) <;> simp [Except.toOption]
  simp [Measure.samplesOf, hok]

/-- The times of a measurement are those of its accepted runs. -/
theorem mem_times_iff {n : Nat} (hbefore : ∀ i < n, Measure.Accepted p.expectOutput (outcome plan req p s station i))
    {t : Float} : t ∈ (progressAt plan req p s station n).times.reverse ↔
      ∃ i ≤ n, ∃ sample, outcome plan req p s station i = .ok sample ∧ Measure.Accepted p.expectOutput (.ok sample) ∧
        sample.timeMs = t := by
  by_cases hlast : Measure.Accepted p.expectOutput (outcome plan req p s station n)
  · rw [times_progressAt hlast, List.mem_map]
    constructor
    · rintro ⟨sample, hmem, rfl⟩
      obtain ⟨i, hi, hsample⟩ := mem_samplesOf_outcomes.mp hmem
      refine ⟨i, Nat.lt_succ_iff.mp hi, sample, hsample, ?_, rfl⟩
      rw [← hsample]
      rcases Nat.lt_succ_iff_lt_or_eq.mp hi with hlt | rfl
      · exact hbefore i hlt
      · exact hlast
    · rintro ⟨i, hi, sample, hsample, -, rfl⟩
      exact ⟨sample, mem_samplesOf_outcomes.mpr ⟨i, Nat.lt_succ_of_le hi, hsample⟩, rfl⟩
  · rw [times_progressAt_rejected hlast, List.mem_map]
    constructor
    · rintro ⟨sample, hmem, rfl⟩
      obtain ⟨i, hi, hsample⟩ := mem_samplesOf_outcomes.mp hmem
      exact ⟨i, Nat.le_of_lt hi, sample, hsample, hsample ▸ hbefore i hi, rfl⟩
    · rintro ⟨i, hi, sample, hsample, haccepted, rfl⟩
      have hne : i ≠ n := by
        rintro rfl
        exact hlast (hsample ▸ haccepted)
      exact ⟨sample, mem_samplesOf_outcomes.mpr ⟨i, by omega, hsample⟩, rfl⟩

end

end Runner

/-- No outcome forces success: that is left to the clock. -/
theorem Measure.status_ending_ne (expected : Bytes) (o : Except Fault Sample) :
    ((Measure.judge expected o).getD Measure.timeUp).status ≠ .success := by
  intro hsuccess
  cases o with
  | error fault => cases hsuccess
  | ok sample =>
    simp only [Measure.judge] at hsuccess
    split at hsuccess
    · next hstatus => exact hstatus hsuccess
    · split at hsuccess
      · cases hsuccess
      · cases hsuccess

/-- A result has an encoding if it is no success, or all its times and their mean are finite. -/
theorem Measure.exists_encode_conclude_iff {requestId program : Bytes} {ending : Measure.Ending} {progress : Measure.Progress}
    (hending : ending.status ≠ .success) :
    (∃ payload, (Measure.conclude requestId program ending progress).encode = .ok payload) ↔
      ((Measure.conclude requestId program ending progress).status = .success →
        (∀ t ∈ progress.times.reverse, IsFinite t) ∧
          IsFinite (Measure.conclude requestId program ending progress).meanMs) := by
  rw [exists_encode_iff]
  by_cases hrunning : ending.status = .running
  · simp only [Measure.conclude, if_pos hrunning, ← Stats.isFinite_range_iff, true_implies]
    exact and_comm
  · simp only [Measure.conclude, if_neg hrunning, hending, false_implies, iff_true]
    decide

namespace Isolate

/-- The time that a meta file gives is finite, unless the last line of that key has a word for it. -/
theorem isFinite_time_iff {text : Bytes} {info : Meta} (h : Meta.parse text = .ok info) :
    IsFinite info.time ↔ ∀ value, LastGives (splitLines text) (utf8 "time") value → ¬ FloatReader.IsWord value := by
  obtain ⟨hsome, hnone⟩ := foldlM_line_entry h .time
  have hlast : ∀ value, Key.time.lastIn (splitLines text) = some value ↔ LastGives (splitLines text) (utf8 "time") value :=
    fun value => Key.lastIn_eq_some_iff
  simp only [← hlast]
  cases hk : Key.time.lastIn (splitLines text) with
  | none =>
    have htime : info.time = 0 := Entry.seconds.inj (hnone hk)
    rw [htime]
    refine ⟨fun _ value h => ?_, fun _ => by decide⟩
    cases h
  | some value =>
    obtain ⟨x, hread, hx⟩ := eq_ok_of_map (hsome value hk)
    obtain rfl := Entry.seconds.inj hx
    rw [FloatReader.isFinite_read_iff hread]
    refine ⟨fun hvalue value' heq => ?_, fun hall => hall value rfl⟩
    cases heq
    exact hvalue

/-- Every time in a meta file that was read is a word or a finite number. -/
theorem isWord_or_isFinite {text : Bytes} {info : Meta} (h : Meta.parse text = .ok info) {line value : Bytes}
    (hline : line ∈ splitLines text) (hgives : Gives line (utf8 "time") value) :
    FloatReader.IsWord value ∨ ∃ x, FloatReader.read value = .ok x ∧ IsFinite x := by
  obtain ⟨x, hread⟩ := (usable_of_parse h line hline).time value hgives
  by_cases hword : FloatReader.IsWord value
  · exact .inl hword
  · exact .inr ⟨x, hread, (FloatReader.isFinite_read_iff hread).mpr hword⟩

/-- The time of a sample is that of a meta file, in milliseconds. -/
theorem exists_time_of_sample {b : Behaviour} {dir : Bytes} {counter : Counter} {req : RunRequest} {sample : Sample}
    (h : (execute b dir counter req).outcome = .ok sample) :
    ∃ text info, b.info = some text ∧ Meta.parse text = .ok info ∧ sample.timeMs = info.time * 1000 := by
  obtain ⟨text, info, hfile, hparse, hsample⟩ := exists_sample_of_met dir counter ((exists_sample_iff dir counter).mp ⟨_, h⟩)
  rw [h] at hsample
  cases hsample
  exact ⟨text, info, hfile, hparse, rfl⟩

end Isolate

namespace Runner

/-- The result of a measurement has an encoding if it is no success, or if the times of all accepted runs and their mean
are finite. -/
theorem exists_encode_measure_iff {σ : Type} {plan : RunPlan} {req : Request} {p : Program} {s : State σ}
    {station : Station σ} (registered : s.station? p.kind = some station) :
    ∃ last, (measure plan req p s).2.2.filter Event.isAct =
        List.replicate (last + 1) (.called p.kind (runRequest plan.workDir req p)) ∧
      ((∃ payload, (measure plan req p s).1.encode = .ok payload) ↔
        ((measure plan req p s).1.status = .success →
          (∀ i ≤ last, ∀ sample, outcome plan req p s station i = .ok sample →
            Measure.Accepted p.expectOutput (.ok sample) → IsFinite sample.timeMs) ∧
          IsFinite (measure plan req p s).1.meanMs)) := by
  obtain ⟨n, -, hfirst, hresult, hcalls⟩ := @exists_last_run σ plan req p s station registered
  refine ⟨n, hcalls, ?_⟩
  rw [hresult, Measure.exists_encode_conclude_iff (Measure.status_ending_ne _ _)]
  refine imp_congr_right fun _ => and_congr_left fun _ => ?_
  simp only [mem_times_iff (accepted_of_not_endsAt hfirst)]
  constructor
  · intro hall i hi sample hsample haccepted
    exact hall _ ⟨i, hi, sample, hsample, haccepted, rfl⟩
  · rintro hall t ⟨i, hi, sample, hsample, haccepted, rfl⟩
    exact hall i hi sample hsample haccepted

end Runner

open Runner Isolate in
/-- Times on their way from the sandbox to the client. What a meta file tells is finite exactly if its last time is not a
word for something else, every other time in it being a finite number. A sample has the milliseconds of such a time. A
successful result can be sent exactly if the times of all its accepted runs and their mean are finite, and over a
connection that takes what the report comes to, the client gets a reply exactly if all results can be sent and the score
is finite. -/
theorem finite_times_iff {σ : Type} (plan : RunPlan) (req : Request) (p : Program) (s : State σ) (station : Station σ)
    (sandboxed : IsSandbox station.executor) (registered : s.station? p.kind = some station) :
    (∀ text info, Meta.parse text = .ok info →
      (IsFinite info.time ↔ ∀ value, LastGives (splitLines text) (utf8 "time") value → ¬ FloatReader.IsWord value) ∧
      ∀ line ∈ splitLines text, ∀ value, Gives line (utf8 "time") value →
        FloatReader.IsWord value ∨ ∃ x, FloatReader.read value = .ok x ∧ IsFinite x) ∧
    (∀ i sample, outcome plan req p s station i = .ok sample →
      ∃ text info, Meta.parse text = .ok info ∧ sample.timeMs = info.time * 1000 ∧
        (IsFinite sample.timeMs → IsFinite info.time)) ∧
    (∃ last, (measure plan req p s).2.2.filter Event.isAct =
        List.replicate (last + 1) (.called p.kind (runRequest plan.workDir req p)) ∧
      ((∃ payload, (measure plan req p s).1.encode = .ok payload) ↔
        ((measure plan req p s).1.status = .success →
          (∀ i ≤ last, ∀ sample, outcome plan req p s station i = .ok sample →
            Measure.Accepted p.expectOutput (.ok sample) → IsFinite sample.timeMs) ∧
          IsFinite (measure plan req p s).1.meanMs))) ∧
    ∀ (c : Bus.Connection) (reply : Bytes) (report : Report),
      (∀ payload, report.encode = .ok payload → ∃ m, c.send reply payload = .ok m) →
      ((∃ m, (Bus.respond c reply report).outcome = .ok m) ↔
        (∀ r ∈ report.results.getD [], ∃ payload, r.encode = .ok payload) ∧ IsFinite report.scoreMs) := by
  refine ⟨fun text info h => ⟨isFinite_time_iff h, fun line hline value => isWord_or_isFinite h hline⟩, ?_,
    exists_encode_measure_iff registered, ?_⟩
  · intro i sample hsample
    obtain ⟨b, dir, counter, hcall⟩ := sandboxed _ _ _
    obtain ⟨text, info, -, hparse, htime⟩ := exists_time_of_sample (hcall.symm.trans hsample)
    exact ⟨text, info, hparse, htime, fun h => Double.isFinite_of_mul_thousand (htime ▸ h)⟩
  · intro c reply report takes
    rw [Bus.respond, Bus.exists_posted_iff takes, exists_encode_report_iff]

open Runner Isolate in
/-- A sandbox that tells a time which is no number: the run is a success, and nobody hears of it. The same connection
takes a report without that result. -/
theorem finite_times_iff_fails_nan :
    let text := utf8 "time:NaN\n"
    let ex : Executor Counter :=
      { id := []
        execute := fun _ counter req =>
          { outcome := (execute { info := some text } [] counter req).outcome, state := counter + 1 } }
    let station : Station Counter := { kind := utf8 "isolate", executor := ex, state := 0 }
    let p : Program := { executor := utf8 "isolate", command := some [utf8 "fib"] }
    let s : State Counter := { stations := [station] }
    let result := (measure {} {} p s).1
    (∃ info, Meta.parse text = .ok info ∧ ¬ IsFinite info.time) ∧ result.status = .success ∧
      (¬ ∃ payload, result.encode = .ok payload) ∧
      (¬ ∃ m, (Bus.respond {} (utf8 "_INBOX") { results := some [result] }).outcome = .ok m) ∧
      ∃ m, (Bus.respond {} (utf8 "_INBOX") { results := some [] }).outcome = .ok m := by
  intro text ex station p s result
  have registered : s.station? p.kind = some station := rfl
  obtain ⟨hmeta, -, ⟨last, -, hencode⟩, hreply⟩ :=
    finite_times_iff {} {} p s station (fun _ counter req => ⟨_, _, counter, rfl⟩) registered
  have hparse : Meta.parse text = .ok { time := 0.0 / 0.0 } := rfl
  have hword : ¬ IsFinite (0.0 / 0.0 : Float) := by
    rw [(hmeta text _ hparse).1]
    intro hall
    exact hall (utf8 "NaN") ⟨[], utf8 "time:NaN", [], rfl, rfl, List.forall_mem_nil _⟩ (by decide)
  have hsample : outcome {} {} p s station 0 = .ok { timeMs := 0.0 / 0.0 * 1000 } := rfl
  have hresult : result.status = .success := by
    rw [show result = _ from (measure_eq (n := 0) registered (by decide) (by omega) (.inl (by decide))).1]
    rfl
  have hnone : ¬ ∃ payload, result.encode = .ok payload := by
    rw [hencode]
    intro hfinite
    have htime := (hfinite hresult).1 0 (Nat.zero_le _) _ hsample (by decide)
    exact absurd htime (by decide)
  have hunsent : ∀ payload, Report.encode { results := some [result] } ≠ .ok payload := by
    intro payload hpayload
    obtain ⟨hall, -⟩ := exists_encode_report_iff.mp ⟨payload, hpayload⟩
    exact hnone (hall result (List.mem_singleton_self _))
  refine ⟨⟨_, hparse, hword⟩, hresult, hnone, ?_, ?_⟩
  · rw [hreply _ _ _ fun payload hpayload => absurd hpayload (hunsent payload)]
    intro hsent
    exact hnone (hsent.1 result (List.mem_singleton_self _))
  · refine (hreply _ _ _ fun payload hpayload => ?_).mpr ⟨List.forall_mem_nil _, by decide⟩
    obtain rfl := Except.ok.inj (hpayload.symm.trans (show Report.encode { results := some [] } = .ok _ from rfl))
    exact ⟨_, rfl⟩

end Stopwatch
