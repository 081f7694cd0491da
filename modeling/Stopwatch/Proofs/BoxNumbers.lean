import Mathlib.Data.List.Nodup
import Stopwatch.Proofs.Boxes
import Stopwatch.Proofs.Numerals

/-!
The numbers of boxes. Calls in a row take one number after the other and use it modulo a thousand, so up to a thousand of
them have boxes of their own, if only the counter went on for ever. A full round of it is no multiple of a thousand:
where it starts again the last 296 boxes are taken once more.
-/

namespace Stopwatch.Isolate

/-- The boxes that the calls of a session take, one for each command. A call takes its number in one step, so the calls
may also overlap: their order is that of the numbers. -/
def boxesOf (start : Counter) (visits : List Visit) : List Bytes :=
  ((visits.zip (session start visits)).filter fun vc => !vc.1.request.words.isEmpty).map fun vc => boxId vc.2.counter

theorem exists_execute_of_mem_session {start : Counter} {visits : List Visit} {c : Call} (h : c ∈ session start visits) :
    ∃ (v : Visit) (counter : Counter), c = execute v.behaviour v.dir counter v.request := by
  induction visits generalizing start with
  | nil => cases h
  | cons v rest ih =>
    rcases List.mem_cons.mp h with rfl | hrest
    · exact ⟨v, start, rfl⟩
    · exact ih hrest

/-- All invocations of a call name the box of its number. -/
theorem box_of_mem_attempts {b : Behaviour} {dir : Bytes} {counter : Counter} {req : RunRequest} {i : Invocation}
    (h : i ∈ (execute b dir counter req).attempts) : i.box = boxId (execute b dir counter req).counter := by
  rw [counter_execute]
  rw [execute] at h
  cases hwords : req.words.isEmpty with
  | true => simp [hwords] at h
  | false =>
    simp only [hwords, Bool.false_eq_true, if_false] at h ⊢
    cases hdir : b.noTempDir with
    | some cause => simp [hdir] at h
    | none =>
      cases htrouble : b.make.trouble with
      | some cause =>
        simp only [hdir, htrouble, List.mem_singleton] at h
        rw [h]
      | none =>
        simp only [hdir, htrouble, List.mem_cons, List.not_mem_nil, or_false] at h
        rcases h with rfl | rfl | rfl <;> rfl

/-- The boxes of a session, by their numbers. -/
theorem boxesOf_eq (start : Counter) (visits : List Visit) :
    boxesOf start visits =
      (List.range (boxesTaken visits)).map fun i => Integer.ofNat ((start.toNat + (i + 1)) % UInt32.size % 1000) := by
  induction visits generalizing start with
  | nil => rfl
  | cons v rest ih =>
    have hcounter := toNat_counter_execute v.behaviour v.dir start v.request
    have hrest := ih (execute v.behaviour v.dir start v.request).counter
    rw [boxesOf] at hrest
    rw [boxesOf, session, List.zip_cons_cons, List.filter_cons, boxesTaken, List.countP_cons, ← boxesTaken]
    cases hwords : v.request.words.isEmpty with
    | true =>
      rw [hwords, if_pos rfl, Nat.add_zero, Nat.mod_eq_of_lt start.toNat_lt_size] at hcounter
      simpa [hwords, hcounter] using hrest
    | false =>
      rw [hwords, if_neg Bool.false_ne_true] at hcounter
      have hlater : ∀ i, ((start.toNat + 1) % UInt32.size + (i + 1)) % UInt32.size =
          (start.toNat + (i + 1 + 1)) % UInt32.size := by
        intro i
        rw [Nat.mod_add_mod, Nat.add_assoc, Nat.add_comm 1]
      simp only [hcounter, hlater] at hrest
      rw [if_pos (by simp), List.map_cons, hrest, if_pos (by simp), List.range_succ_eq_map, List.map_cons, List.map_map, boxId,
        hcounter]
      rfl

/-- Two numbers of a thousand in a row meet only across the end of the counter, 296 places apart. -/
theorem meet_iff {start i j : Nat} (hstart : start < UInt32.size) (hij : i < j) (hj : j < 1000) :
    (start + (i + 1)) % UInt32.size % 1000 = (start + (j + 1)) % UInt32.size % 1000 ↔
      j = i + 296 ∧ start + (i + 1) < UInt32.size ∧ UInt32.size ≤ start + (j + 1) := by
  -- both before the end, both behind it, or the end between them
  have hwrap : ∀ k, UInt32.size ≤ k → k < UInt32.size + UInt32.size → k % UInt32.size = k - UInt32.size := by
    intro k hge hlt
    rw [Nat.mod_eq_sub_mod hge, Nat.mod_eq_of_lt (by omega)]
  have hsize : UInt32.size = 4294967296 := rfl
  rcases Nat.lt_or_ge (start + (j + 1)) UInt32.size with hbefore | hbehind
  · have hi : start + (i + 1) < UInt32.size := by omega
    rw [Nat.mod_eq_of_lt hbefore, Nat.mod_eq_of_lt hi]
    omega
  · rw [hwrap _ hbehind (by omega)]
    rcases Nat.lt_or_ge (start + (i + 1)) UInt32.size with hi | hi
    · rw [Nat.mod_eq_of_lt hi]
      omega
    · rw [hwrap _ hi (by omega)]
      omega

/-- The numbers of up to a thousand calls in a row differ exactly if they are few or stay on one side of the end. -/
theorem numbers_inj_iff {start n : Nat} (hstart : start < UInt32.size) (hn : n ≤ 1000) :
    (∀ i < n, ∀ j < n, (start + (i + 1)) % UInt32.size % 1000 = (start + (j + 1)) % UInt32.size % 1000 → i = j) ↔
      n ≤ 296 ∨ start + n < UInt32.size ∨ start + 1 = UInt32.size := by
  constructor
  · intro hinj
    by_contra hnot
    have hsize : UInt32.size = 4294967296 := rfl
    obtain ⟨hmany, hend, hbegin⟩ : 296 < n ∧ UInt32.size ≤ start + n ∧ start + 1 ≠ UInt32.size := by omega
    -- a number so close before the end that the number 296 places on lies behind it
    have hmeet := (meet_iff (i := UInt32.size - 297 - start) (j := UInt32.size - 297 - start + 296) hstart (by omega)
      (by omega)).mpr ⟨rfl, by omega, by omega⟩
    have := hinj _ (by omega) _ (by omega) hmeet
    omega
  · intro hapart i hi j hj heq
    rcases Nat.lt_trichotomy i j with hlt | rfl | hlt
    · obtain ⟨rfl, hbefore, hbehind⟩ := (meet_iff hstart hlt (by omega)).mp heq
      omega
    · rfl
    · obtain ⟨rfl, hbefore, hbehind⟩ := (meet_iff hstart hlt (by omega)).mp heq.symm
      omega

theorem ofNat_inj {m n : Nat} : Integer.ofNat m = Integer.ofNat n ↔ m = n := by
  constructor
  · intro h
    rw [← Integer.digitsValue_ofNat m, h, Integer.digitsValue_ofNat]
  · rintro rfl
    rfl

/-- Of up to a thousand calls with a command in a row, no two take the same box exactly if there are at most 296 of them or
the counter does not start again between them. All boxes have numbers below a thousand, and all invocations of a call
name its box. -/
theorem boxes_nodup_iff (start : Counter) (visits : List Visit) (few : boxesTaken visits ≤ 1000) :
    (boxesOf start visits).length = boxesTaken visits ∧
    (∀ box ∈ boxesOf start visits, ∃ k < 1000, box = Integer.ofNat k) ∧
    ((boxesOf start visits).Nodup ↔
      boxesTaken visits ≤ 296 ∨ start.toNat + boxesTaken visits < UInt32.size ∨ start.toNat + 1 = UInt32.size) ∧
    ∀ c ∈ session start visits, ∀ i ∈ c.attempts, i.box = boxId c.counter := by
  refine ⟨by simp [boxesOf_eq], fun box hbox => ?_, ?_, fun c hc => ?_⟩
  · rw [boxesOf_eq] at hbox
    obtain ⟨i, -, rfl⟩ := List.mem_map.mp hbox
    exact ⟨_, Nat.mod_lt _ (by decide), rfl⟩
  · rw [boxesOf_eq, List.nodup_map_iff_inj_on List.nodup_range, ← numbers_inj_iff start.toNat_lt_size few]
    simp only [List.mem_range, ofNat_inj]
  · obtain ⟨v, counter, rfl⟩ := exists_execute_of_mem_session hc
    exact fun i => box_of_mem_attempts

/-- From two numbers before the end on, the first of 297 calls and the last of them take box 295. -/
theorem boxes_nodup_iff_fails_at_end :
    let v : Visit := ⟨{}, utf8 "t", { command := some [utf8 "x"] }⟩
    boxesTaken (List.replicate 297 v) = 297 ∧ ¬ (boxesOf 4294967294 (List.replicate 297 v)).Nodup := by
  intro v
  have htaken : boxesTaken (List.replicate 297 v) = 297 := by
    rw [boxesTaken, List.countP_replicate]
    rfl
  refine ⟨htaken, ?_⟩
  obtain ⟨-, -, hnodup, -⟩ := boxes_nodup_iff 4294967294 (List.replicate 297 v) (by rw [htaken]; decide)
  rw [hnodup, htaken]
  decide

end Stopwatch.Isolate
