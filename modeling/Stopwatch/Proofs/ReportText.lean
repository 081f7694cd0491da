import Mathlib.Data.List.Forall2
import Stopwatch.Bench.Table
import Stopwatch.Proofs.Places
import Stopwatch.Proofs.Trimming

/-!
The table of a report, written to an output that may refuse. The table consists of pieces, one for each result, a rule
and the score; what is written is always a number of whole pieces from the beginning, up to the first refusal.
-/

namespace Stopwatch.Table

/-! ### Writing piece by piece -/

/-- An output that takes so many writes and refuses all later ones, each with an error of its own. -/
def refusesFrom {ε : Type} (k : Nat) (error : Nat → ε) : Nat → Option ε :=
  fun n => if n < k then none else some (error n)

section Writing
variable {ε : Type}

/-- What becomes of pieces if some writes went before. -/
theorem writeAll_refusesFrom (k : Nat) (error : Nat → ε) (pieces : List Bytes) (w : Written ε) (h : w.attempts ≤ k) :
    writeAll (refusesFrom k error) pieces w =
      { text := w.text ++ (pieces.take (k - w.attempts)).flatten
        attempts := w.attempts + min (k - w.attempts + 1) pieces.length
        error := if k - w.attempts < pieces.length then some (error k) else w.error } := by
  induction pieces generalizing w with
  | nil => simp [writeAll]
  | cons piece rest ih =>
    rw [writeAll]
    rcases Nat.lt_or_eq_of_le h with hlt | heq
    · have haccepts : refusesFrom k error w.attempts = none := if_pos hlt
      obtain ⟨left, hleft⟩ : ∃ left, k - w.attempts = left + 1 := ⟨k - w.attempts - 1, by omega⟩
      have hnext : k - (w.attempts + 1) = left := by omega
      simp only [haccepts]
      rw [ih _ (show w.attempts + 1 ≤ k from hlt)]
      simp only [hnext, hleft, List.take_succ_cons, List.flatten_cons, List.length_cons, List.append_assoc,
        Nat.add_lt_add_iff_right, Written.mk.injEq, true_and, and_true]
      omega
    · have hrefuses : refusesFrom k error w.attempts = some (error k) := by rw [refusesFrom, if_neg (by omega), heq]
      simp only [hrefuses]
      simp [heq]

/-- Nothing after the first refusal is asked for. -/
theorem writeAll_congr {refuses refuses' : Nat → Option ε} {k : Nat} (hsame : ∀ i ≤ k, refuses' i = refuses i)
    (hrefuses : (refuses k).isSome) (pieces : List Bytes) (w : Written ε) (h : w.attempts ≤ k) :
    writeAll refuses' pieces w = writeAll refuses pieces w := by
  induction pieces generalizing w with
  | nil => rfl
  | cons piece rest ih =>
    rw [writeAll, writeAll, hsame _ h]
    cases hattempt : refuses w.attempts with
    | some e => rfl
    | none =>
      have hne : w.attempts ≠ k := by
        intro heq
        rw [← heq, hattempt] at hrefuses
        cases hrefuses
      exact ih _ (show w.attempts + 1 ≤ k by omega)

end Writing

/-! ### The pieces -/

/-- A name in its column: whole, and with as many spaces behind it as bring it to the width of the column. -/
def IsColumn (name column : Bytes) : Prop :=
  ∃ spaces, column = name ++ List.replicate spaces Ascii.space ∧ column.glyphs.length = max 37 name.glyphs.length

/-- A double with one place after the point: the nearest number of tenths, the even one of two. What is not finite has a
name. -/
def IsTenths (x : Float) (text : Bytes) : Prop :=
  match Double.ofFloat x with
  | .nan => text = utf8 "NaN"
  | .infinite negative => text = if negative then utf8 "-Inf" else utf8 "+Inf"
  | .finite negative m e => ∃ n : Nat, Rounding.RoundsTo (m * 2 ^ e * 10) n ∧
      text = (if negative then [Ascii.minus] else []) ++ Integer.ofNat (n / 10) ++ [Ascii.dot, Integer.digit (n % 10)]

/-- A time in its cell: one place after the point, and spaces in front up to six octets before the unit. -/
def IsTime (ms : Float) (cell : Bytes) : Prop :=
  IsTenths ms (Layout.fixed 1 ms) ∧
    ∃ spaces, cell = List.replicate spaces Ascii.space ++ Layout.fixed 1 ms ++ utf8 "ms" ∧
      spaces + (Layout.fixed 1 ms).length = max 6 (Layout.fixed 1 ms).length

/-- A line of the table with a name and a cell. -/
def IsLine (name : Bytes) (fits : Bytes → Prop) (piece : Bytes) : Prop :=
  ∃ column cell, piece = column ++ [Ascii.space] ++ cell ++ [Ascii.newline] ∧ IsColumn name column ∧ fits cell

/-- The piece of a result: its mean if it succeeded, else its status. -/
def Shows (r : Result) (piece : Bytes) : Prop :=
  IsLine r.program
    (fun cell => (r.status = .success → IsTime r.meanMs cell) ∧ (r.status ≠ .success → cell = r.status.text)) piece

theorem replicate_space (n : Nat) : List.replicate n Ascii.space = Bytes.ofChars (List.replicate n ' ') := by
  induction n with
  | zero => rfl
  | succ n ih =>
    rw [List.replicate_succ, ih]
    rfl

theorem isColumn_padRight (name : Bytes) : IsColumn name (name.padRight nameWidth) := by
  refine ⟨_, rfl, ?_⟩
  rw [Bytes.padRight, replicate_space, Bytes.glyphs_append_ofChars, List.length_append, List.length_map,
    List.length_replicate, nameWidth]
  omega

theorem isTenths_fixed (x : Float) : IsTenths x (Layout.fixed 1 x) := by
  unfold IsTenths
  cases hx : Double.ofFloat x with
  | nan => simp [Layout.fixed, Layout.layout, hx, Layout.special]
  | infinite negative => cases negative <;> simp [Layout.fixed, Layout.layout, hx, Layout.special]
  | finite negative m e =>
    obtain ⟨n, hn, hfixed⟩ := @Layout.fixed_eq 1 m e negative x hx
    have hplace : Layout.padded 1 (n % 10) = [Integer.digit (n % 10)] := by
      have hlt : n % 10 < 10 ^ 1 := Nat.mod_lt n (by decide)
      rw [Layout.padded_eq_lastDigits (by decide) hlt, Layout.lastDigits, Nat.mod_mod]
      rfl
    rw [pow_one] at hn
    rw [Layout.withPlaces_eq (by decide), pow_one, hplace] at hfixed
    exact ⟨n, hn, by rw [hfixed, List.append_assoc]⟩

theorem isTime_time (ms : Float) : IsTime ms (time ms) := by
  refine ⟨isTenths_fixed ms, _, rfl, ?_⟩
  omega

theorem isLine_line (name : Bytes) {cell : Bytes} {fits : Bytes → Prop} (h : fits cell) :
    IsLine name fits (line name cell) :=
  ⟨_, cell, rfl, isColumn_padRight name, h⟩

theorem shows_resultLine (r : Result) : Shows r (resultLine r) := by
  refine isLine_line r.program ⟨fun hsuccess => ?_, fun hother => ?_⟩
  · rw [if_pos hsuccess]
    exact isTime_time r.meanMs
  · rw [if_neg hother]

theorem length_lines (report : Report) : (lines report).length = (report.results.getD []).length + 2 := by
  simp [lines]

/-- Into an output that takes `k` writes and refuses all later ones, the first `k` pieces of the table are written, and
nothing else is tried after the first refusal, whose error is returned; there is one exactly if the table has more than
`k` pieces. The pieces are a line for each result in order, with its whole name and its mean or its status, then the
rule, then the score. -/
theorem write_whole_pieces {ε : Type} (report : Report) (k : Nat) (error : Nat → ε) :
    let results := report.results.getD []
    let written := write (refusesFrom k error) report
    written.text = ((lines report).take (min k (results.length + 2))).flatten ∧
    written.error = (if k < results.length + 2 then some (error k) else none) ∧
    written.attempts = min (k + 1) (results.length + 2) ∧
    (∀ refuses : Nat → Option ε, (∀ i ≤ k, refuses i = refusesFrom k error i) → write refuses report = written) ∧
    (results.length + 2 ≤ k → written.text = text report) ∧
    ∃ pieces rule score, lines report = pieces ++ [rule, score] ∧ List.Forall₂ Shows results pieces ∧
      IsLine [] (· = utf8 "========") rule ∧ IsLine (utf8 "Score") (IsTime report.scoreMs) score := by
  intro results written
  have hlength : (lines report).length = results.length + 2 := length_lines report
  have hwritten := writeAll_refusesFrom k error (lines report) {} (Nat.zero_le k)
  rw [hlength] at hwritten
  have htext : written.text = ((lines report).take k).flatten := (congrArg Written.text hwritten).trans (by simp)
  refine ⟨?_, ?_, ?_, ?_, ?_, ?_⟩
  · rw [htext, ← hlength, ← List.take_take, List.take_length]
  · exact (congrArg Written.error hwritten).trans (by simp)
  · exact (congrArg Written.attempts hwritten).trans (by simp)
  · intro refuses hsame
    exact writeAll_congr hsame (by simp [refusesFrom]) _ _ (Nat.zero_le k)
  · intro hfits
    rw [htext, List.take_of_length_le (by omega), text]
  · refine ⟨results.map resultLine, _, _, rfl, ?_, isLine_line [] rfl, isLine_line _ (isTime_time report.scoreMs)⟩
    exact List.forall₂_map_right_iff.mpr (List.forall₂_same.mpr fun r _ => shows_resultLine r)

/-- An output that refuses the second write only is not asked for the third. -/
theorem write_whole_pieces_second_refused :
    let report : Report :=
      { results := some
          [{ program := utf8 "fib/binary", status := .wrongOutput }, { program := utf8 "fib", status := .success }] }
    let written := write (refusesFrom 1 fun n => n) report
    written.text = utf8 "fib/binary                            wrong_output\n" ∧ written.error = some 1 ∧
      written.attempts = 2 ∧ write (fun n => if n = 1 then some 1 else none) report = written := by
  intro report written
  obtain ⟨htext, herror, hattempts, hunasked, -⟩ := write_whole_pieces report 1 fun n => n
  refine ⟨htext.trans (by decide +kernel), herror, hattempts, hunasked _ fun i hi => ?_⟩
  obtain rfl | rfl : i = 0 ∨ i = 1 := by omega
  · rfl
  · rfl

end Stopwatch.Table
