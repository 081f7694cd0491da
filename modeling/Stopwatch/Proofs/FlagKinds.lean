import Stopwatch.Flags.Basic
import Stopwatch.Proofs.Outcome

/-!
The values that a command line gives its flags. Whatever is parsed, each value belongs to a flag that is understood, and is
of the kind that this flag takes.
-/

namespace Stopwatch.Flags

/-- The kind of a value. -/
def Given.kind : Given → Kind
  | .text _ => .text
  | .int _ => .int
  | .truth _ => .truth
  | .duration _ => .duration

/-- Every value belongs to one of the flags and is of its kind. -/
def Parsed.Understood (specs : List Spec) (p : Parsed) : Prop :=
  ∀ e ∈ p.given, ∃ spec ∈ specs, spec.name = e.1 ∧ spec.kind = e.2.kind

theorem Spec.kind_read {s : Spec} {value : Bytes} {v : Given} (h : s.read value = .ok v) : s.kind = v.kind := by
  cases hk : s.kind with
  | text =>
    rw [Spec.read, hk] at h
    cases h
    rfl
  | int | truth | duration =>
    rw [Spec.read, hk] at h
    obtain ⟨n, -, rfl⟩ := eq_ok_of_map (eq_ok_of_mapError h)
    rfl

section
variable {specs : List Spec} {p p' : Parsed}

theorem Parsed.mem_given_of_get? {name : Bytes} {v : Given} (h : p.get? name = some v) : (name, v) ∈ p.given := by
  obtain ⟨before, after, hgiven, -⟩ := List.lookup_eq_some_iff.mp h
  rw [hgiven]
  exact List.mem_append_right _ List.mem_cons_self

theorem Parsed.Understood.set (h : p.Understood specs) {s : Spec} (hs : s ∈ specs) {value : Bytes}
    (hset : p.set s value = .ok p') : p'.Understood specs := by
  obtain ⟨v, hv, rfl⟩ := eq_ok_of_map hset
  intro e he
  rcases List.mem_cons.mp he with rfl | he
  · exact ⟨s, hs, rfl, Spec.kind_read hv⟩
  · exact h e he

theorem Parsed.Understood.letters {ls : Bytes} (h : p.Understood specs) (hletters : letters specs ls p = .ok p') :
    p'.Understood specs := by
  induction ls generalizing p with
  | nil =>
    cases hletters
    exact h
  | cons b rest ih =>
    rw [Flags.letters.eq_def] at hletters
    dsimp only at hletters
    split at hletters
    · cases hletters
    · next s hs =>
      have hmem := List.mem_of_find?_eq_some hs
      split at hletters
      · exact h.set hmem hletters
      · split at hletters
        · cases hletters
        · next q hq => exact ih (h.set hmem hq) hletters

/-- The step and the run: each word of a command line keeps what was given understood. -/
theorem Parsed.Understood.parseOnto {args : List Bytes} (h : p.Understood specs)
    (hparse : parseOnto specs args p = .ok p') : p'.Understood specs := by
  fun_induction Flags.parseOnto specs args p with
  | case1 | case3 =>
    cases hparse
    exact h
  | case2 p word rest _ ih => exact ih h hparse
  | case6 p word rest ls _ q hq ih => exact ih (h.letters hq) hparse
  | case9 p word name s hs v rest q hq _ ih => exact ih (h.set (List.mem_of_find?_eq_some hs) hq) hparse
  | case10 p word name s hs => exact h.set (List.mem_of_find?_eq_some hs) hparse
  | case13 p word name s hs next rest _ q hq _ ih => exact ih (h.set (List.mem_of_find?_eq_some hs) hq) hparse
  | case15 p word name s hs next rest _ q hq _ ih => exact ih (h.set (List.mem_of_find?_eq_some hs) hq) hparse
  | case4 | case5 | case7 | case8 | case11 | case12 | case14 => cases hparse

end

theorem understood_parse {specs : List Spec} {args : List Bytes} {p : Parsed} (h : parse specs args = .ok p) :
    p.Understood specs := by
  have hnone : ({} : Parsed).Understood specs := fun e he => absurd he List.not_mem_nil
  exact hnone.parseOnto h

end Stopwatch.Flags
