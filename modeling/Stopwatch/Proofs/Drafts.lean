import Mathlib.Tactic.Common
import Stopwatch.Proofs.Grammar
import Stopwatch.Wire.Message

/-!
Values that are read one over the other. What a reader makes of several values depends on their types alone: of texts and
whole numbers the last one counts, lists are laid over each other place by place, and tables are read as one table with
the entries of all.
-/

namespace Stopwatch

/-! ### Whole numbers -/

/-- The integer that a literal of digits stands for, with or without a sign. -/
def literalValue (literal : Bytes) : Int :=
  if literal.head? = some Ascii.minus then -digitsValue (Integer.unsigned literal)
  else digitsValue (Integer.unsigned literal)

/-- A literal without places and exponent that stands for a machine integer. -/
structure IsMachineLiteral (literal : Bytes) : Prop where
  digits : IsDigits (Integer.unsigned literal)
  nonempty : Integer.unsigned literal ≠ []
  lower : -2 ^ 63 ≤ literalValue literal
  upper : literalValue literal < 2 ^ 63

namespace Integer

theorem isDigit_of_digitValue?_lt {b : UInt8} {d : Nat} (h : Ascii.digitValue? b = some d) (hd : d < 10) :
    Ascii.isDigit b = true ∧ d = b.toNat - 0x30 := by
  rw [Ascii.digitValue?] at h
  split at h
  · next hdigit => exact ⟨hdigit, (Option.some.inj h).symm⟩
  · split at h
    · cases h
      omega
    · cases h

theorem readDigits_eq_ok {s : Bytes} {n m : Nat} (h : readDigits 10 false s n = .ok m) :
    IsDigits s ∧ m = n * 10 ^ s.length + digitsValue s := by
  induction s generalizing n with
  | nil =>
    cases h
    exact ⟨List.forall_mem_nil _, by simp [digitsValue]⟩
  | cons b s ih =>
    rw [readDigits] at h
    simp only [Bool.false_and, Bool.false_eq_true, if_false] at h
    split at h
    · cases h
    · next d hd =>
      split at h
      · cases h
      · next hlt =>
        split at h
        · cases h
        · obtain ⟨hdigit, rfl⟩ := isDigit_of_digitValue?_lt hd (by omega)
          obtain ⟨hdigits, hm⟩ := ih h
          refine ⟨List.forall_mem_cons.mpr ⟨hdigit, hdigits⟩, ?_⟩
          rw [hm, digitsValue_step]

theorem magnitude_eq_ok {s : Bytes} {n : Nat} (h : magnitude 10 s = .ok n) :
    IsDigits s ∧ s ≠ [] ∧ n = digitsValue s := by
  rw [magnitude] at h
  split at h
  · cases h
  · next hne =>
    obtain ⟨hdigits, hvalue⟩ := readDigits_eq_ok h
    exact ⟨hdigits, by simpa using hne, by simpa using hvalue⟩

theorem magnitude_of_isDigits {s : Bytes} (h : IsDigits s) (hne : s ≠ []) (hlt : digitsValue s < 2 ^ 64) :
    magnitude 10 s = .ok (digitsValue s) := by
  have hread := readDigits_of_isDigits h (n := 0) (by simpa using hlt)
  rw [magnitude, if_neg (by simpa using hne), hread]
  simp

/-- Exactly the literals of machine integers are read, each as the integer it stands for. -/
theorem toOption_read_eq_some_iff {literal : Bytes} {n : Int64} :
    (read literal).toOption = some n ↔ IsMachineLiteral literal ∧ n = Int64.ofInt (literalValue literal) := by
  constructor
  · intro h
    rw [read, signed] at h
    split at h
    · cases h
    · next m hm =>
      obtain ⟨hdigits, hne, rfl⟩ := magnitude_eq_ok hm
      split at h
      · next hminus =>
        split at h
        · cases h
        · next hle =>
          cases h
          have hvalue : literalValue literal = -digitsValue (unsigned literal) := if_pos hminus
          have hle : digitsValue (unsigned literal) ≤ 2 ^ 63 := Nat.le_of_not_lt hle
          exact ⟨⟨hdigits, hne, by omega, by omega⟩, by rw [hvalue]⟩
      · next hplus =>
        split at h
        · cases h
        · next hlt =>
          cases h
          have hvalue : literalValue literal = digitsValue (unsigned literal) := if_neg hplus
          have hlt : digitsValue (unsigned literal) < 2 ^ 63 := Nat.lt_of_not_le hlt
          exact ⟨⟨hdigits, hne, by omega, by omega⟩, by rw [hvalue]⟩
  · rintro ⟨⟨hdigits, hne, hlower, hupper⟩, rfl⟩
    rw [literalValue] at hlower hupper ⊢
    rw [read, signed]
    split at hlower
    · next hminus =>
      rw [magnitude_of_isDigits hdigits hne (by omega)]
      have hle : ¬ Nat.pow 2 63 < digitsValue (unsigned literal) := by
        show ¬ 2 ^ 63 < _
        omega
      simp [hminus, hle, Except.mapError, Except.toOption]
    · next hplus =>
      rw [if_neg hplus] at hupper
      rw [magnitude_of_isDigits hdigits hne (by omega)]
      have hlt : ¬ Nat.pow 2 63 ≤ digitsValue (unsigned literal) := by
        show ¬ 2 ^ 63 ≤ _
        omega
      simp [hplus, hlt, Except.mapError, Except.toOption]

end Integer

namespace Wire

/-! ### Values one over the other -/

/-- Reads several values, each over what the earlier ones left. -/
def readOver {α : Type} (read : α → Value → Option α) (old : α) (vs : List Value) : Option α := vs.foldlM read old

/-- What a reader makes of several values: it goes through exactly if every value fits, and what it leaves shows the value
that they have together. -/
structure ReadsAs {α β : Type} (read : α → Value → Option α) (fresh : α) (view : α → β) (Fits : Value → Prop)
    (value : List Value → β) : Prop where
  isSome_iff : ∀ vs, (readOver read fresh vs).isSome ↔ ∀ v ∈ vs, Fits v
  view_eq : ∀ {vs x}, readOver read fresh vs = some x → view x = value vs

section
variable {α β : Type} {read : α → Value → Option α} {fresh : α} {view : α → β} {Fits : Value → Prop}
  {value : List Value → β}

@[simp] theorem readOver_nil (old : α) : readOver read old [] = some old := rfl

@[simp] theorem readOver_cons (old : α) (v : Value) (vs : List Value) :
    readOver read old (v :: vs) = (read old v).bind fun x => readOver read x vs := List.foldlM_cons

theorem readOver_append (old : α) (vs ws : List Value) :
    readOver read old (vs ++ ws) = (readOver read old vs).bind fun x => readOver read x ws := List.foldlM_append

theorem ReadsAs.exists_eq_some (h : ReadsAs read fresh view Fits value) {vs : List Value} (hfits : ∀ v ∈ vs, Fits v) :
    ∃ x, readOver read fresh vs = some x := Option.isSome_iff_exists.mp ((h.isSome_iff vs).mpr hfits)

theorem ReadsAs.fits (h : ReadsAs read fresh view Fits value) {vs : List Value} {x : α}
    (hx : readOver read fresh vs = some x) : ∀ v ∈ vs, Fits v :=
  (h.isSome_iff vs).mp (by rw [hx]; rfl)

/-- One more value goes through exactly if it fits. -/
theorem ReadsAs.isSome_read_iff (h : ReadsAs read fresh view Fits value) {vs : List Value} {x : α}
    (hx : readOver read fresh vs = some x) (v : Value) : (read x v).isSome ↔ Fits v := by
  have hiff := h.isSome_iff (vs ++ [v])
  rw [readOver_append, hx, Option.bind_some, readOver_cons] at hiff
  simp only [readOver_nil, Option.bind_fun_some, List.forall_mem_append, List.forall_mem_singleton] at hiff
  exact hiff.trans (and_iff_right (h.fits hx))

/-- A reader tells what a summary of the values does, if each value that fits keeps what was read and the summary in
agreement. -/
theorem ReadsAs.of_step {σ : Type} (Inv : σ → α → Prop) (step : σ → Value → σ) {init : σ} (hinit : Inv init fresh)
    (hfits : ∀ {s x}, Inv s x → ∀ v, (read x v).isSome ↔ Fits v)
    (hstep : ∀ {s x v y}, Inv s x → read x v = some y → Inv (step s v) y) {tell : σ → β}
    (hview : ∀ {s x}, Inv s x → view x = tell s) :
    ReadsAs read fresh view Fits fun vs => tell (vs.foldl step init) where
  isSome_iff := by
    intro vs
    induction vs generalizing init fresh with
    | nil => simp
    | cons v vs ih =>
      rw [readOver_cons, List.forall_mem_cons, ← hfits hinit v]
      cases hread : read fresh v with
      | none => simp
      | some x => simpa using ih (hstep hinit hread)
  view_eq := by
    intro vs x h
    induction vs generalizing init fresh with
    | nil =>
      cases h
      exact hview hinit
    | cons v vs ih =>
      obtain ⟨y, hy, hx⟩ := Option.bind_eq_some_iff.mp h
      exact ih (hstep hinit hy) hx

end

/-! ### Texts and whole numbers -/

/-- The last of several values that is not passed over. -/
def lastOf {α : Type} (value? : Value → Option α) (fresh : α) (vs : List Value) : α :=
  (vs.filterMap value?).getLast?.getD fresh

theorem lastOf_eq_foldl {α : Type} (value? : Value → Option α) (fresh : α) (vs : List Value) :
    lastOf value? fresh vs = vs.foldl (fun old v => (value? v).getD old) fresh := by
  induction vs generalizing fresh with
  | nil => rfl
  | cons v vs ih =>
    rw [List.foldl_cons, ← ih]
    cases hv : value? v with
    | none => simp [lastOf, hv]
    | some x => simp [lastOf, hv, List.getLast?_cons]

/-- A reader that keeps nothing of what was there but for the values that it passes over. -/
theorem ReadsAs.last {α : Type} {read : α → Value → Option α} {value? : Value → Option α} {Fits : Value → Prop}
    (hfits : ∀ old v, (read old v).isSome ↔ Fits v) (hvalue : ∀ {old v x}, read old v = some x → x = (value? v).getD old)
    (fresh : α) : ReadsAs read fresh id Fits (lastOf value? fresh) := by
  have hlast : lastOf value? fresh = fun vs => vs.foldl (fun old v => (value? v).getD old) fresh :=
    funext (lastOf_eq_foldl value? fresh)
  rw [hlast]
  refine .of_step (fun s x => x = s) _ rfl (fun {_ x} _ => hfits x) ?_ id
  rintro s x v y rfl h
  exact hvalue h

/-- A text, or null. -/
inductive FitsText : Value → Prop
  | null : FitsText .null
  | text (s : Bytes) : FitsText (.text s)

def Value.text? : Value → Option Bytes
  | .text s => some s
  | _ => none

theorem readsAs_textOver : ReadsAs textOver [] id FitsText (lastOf Value.text? []) := by
  refine .last (fun old v => ?_) (fun {old v x} h => ?_) []
  · cases v with
    | null => exact iff_of_true rfl .null
    | text s => exact iff_of_true rfl (.text s)
    | truth | number | list | table => exact iff_of_false Bool.false_ne_true (by rintro ⟨⟩)
  · cases v with
    | null | text => exact (Option.some.inj h).symm
    | truth | number | list | table => cases h

/-- A literal of a machine integer, or null. -/
inductive FitsInt : Value → Prop
  | null : FitsInt .null
  | number {literal : Bytes} (h : IsMachineLiteral literal) : FitsInt (.number literal)

def Value.int? : Value → Option Int64
  | .number literal => some (Int64.ofInt (literalValue literal))
  | _ => none

theorem readsAs_intOver : ReadsAs intOver 0 id FitsInt (lastOf Value.int? 0) := by
  refine .last (fun old v => ?_) (fun {old v x} h => ?_) 0
  · cases v with
    | null => exact iff_of_true rfl .null
    | number literal =>
      constructor
      · intro h
        obtain ⟨n, hn⟩ := Option.isSome_iff_exists.mp h
        exact .number (Integer.toOption_read_eq_some_iff.mp hn).1
      · rintro ⟨⟩
        next h => exact Option.isSome_iff_exists.mpr ⟨_, Integer.toOption_read_eq_some_iff.mpr ⟨h, rfl⟩⟩
    | truth | text | list | table => exact iff_of_false Bool.false_ne_true (by rintro ⟨⟩)
  · cases v with
    | null => exact (Option.some.inj h).symm
    | number literal => exact (Integer.toOption_read_eq_some_iff.mp h).2
    | truth | text | list | table => cases h

/-! ### Lists -/

/-- A list of values that fit, or null. -/
inductive FitsList (Fits : Value → Prop) : Value → Prop
  | null : FitsList Fits .null
  | list {items : List Value} (h : ∀ v ∈ items, Fits v) : FitsList Fits (.list items)

theorem fitsList_list {Fits : Value → Prop} {items : List Value} :
    FitsList Fits (.list items) ↔ ∀ v ∈ items, Fits v := by
  refine ⟨fun h => ?_, .list⟩
  cases h with
  | list h => exact h

/-- The lists that count after one more value: null and the empty list take the earlier ones away, and after null there is
no list at all. -/
def layOver (ls : Option (List (List Value))) : Value → Option (List (List Value))
  | .list [] => some []
  | .list items => some (ls.getD [] ++ [items])
  | _ => none

/-- What several lists have at a place, in order. -/
def column (i : Nat) (ls : List (List Value)) : List Value := ls.filterMap (·[i]?)

/-- Lists laid over each other: as long as the last one, with every place read from all that reach it. -/
def overlaid {β : Type} (value : List Value → β) (vs : List Value) : Option (List β) :=
  (vs.foldl layOver none).map fun ls => (List.range (ls.getLast?.getD []).length).map fun i => value (column i ls)

section
variable {α β : Type} {item : α → Value → Option α} {fresh : α} {view : α → β} {Fits : Value → Prop}
  {value : List Value → β}

theorem itemsOver_eq_some {values : List Value} {old xs : List α} (h : itemsOver fresh item values old = some xs) :
    xs.length = values.length ∧ ∀ {i : Nat} {v : Value}, values[i]? = some v → item (old[i]?.getD fresh) v = xs[i]? := by
  induction values generalizing old xs with
  | nil =>
    cases h
    exact ⟨rfl, fun h => by simp at h⟩
  | cons v values ih =>
    simp only [itemsOver, bind, Option.bind_eq_some_iff] at h
    obtain ⟨x, hx, rest, hrest, heq⟩ := h
    cases heq
    obtain ⟨hlength, hplaces⟩ := ih hrest
    refine ⟨congrArg Nat.succ hlength, ?_⟩
    intro i w hw
    cases i with
    | zero =>
      cases hw
      rwa [List.head?_eq_getElem?] at hx
    | succ i =>
      have := hplaces hw
      rwa [List.getElem?_tail] at this

theorem exists_itemsOver {values : List Value} {old : List α}
    (h : ∀ {i : Nat} {v : Value}, values[i]? = some v → (item (old[i]?.getD fresh) v).isSome) :
    ∃ xs, itemsOver fresh item values old = some xs := by
  induction values generalizing old with
  | nil => exact ⟨[], rfl⟩
  | cons v values ih =>
    obtain ⟨x, hx⟩ := Option.isSome_iff_exists.mp (h (i := 0) rfl)
    have htail : ∀ {i : Nat} {w : Value}, values[i]? = some w → (item (old.tail[i]?.getD fresh) w).isSome := by
      intro i w hw
      rw [List.getElem?_tail]
      exact h (i := i + 1) hw
    obtain ⟨xs, hxs⟩ := ih htail
    rw [← List.head?_eq_getElem?] at hx
    exact ⟨x :: xs, by simp [itemsOver, hx, hxs]⟩

/-- What stands in the places, the spare ones included. -/
def places (old : Option (Slots α)) : List α := (old.map fun slots => slots.items ++ slots.spare).getD []

theorem listOver_cons (old : Option (Slots α)) (v : Value) (values : List Value) :
    listOver fresh item old (.list (v :: values)) = (itemsOver fresh item (v :: values) (places old)).map fun items =>
      some { items, spare := (places old).drop items.length } := by
  cases old <;> rfl

/-- The lists so far and what stands in the places after them. -/
structure Laid (item : α → Value → Option α) (fresh : α) (ls : Option (List (List Value))) (old : Option (Slots α)) :
    Prop where
  length_eq : old.map (fun slots => slots.items.length) = ls.map fun ls => (ls.getLast?.getD []).length
  read_column : ∀ i, readOver item fresh (column i (ls.getD [])) = some ((places old)[i]?.getD fresh)

variable {ls : Option (List (List Value))} {old : Option (Slots α)}

theorem laid_none : Laid item fresh none none := ⟨rfl, fun _ => rfl⟩

theorem laid_empty : Laid item fresh (some []) (some { items := [] }) := ⟨rfl, fun _ => rfl⟩

theorem column_append (i : Nat) (ls : List (List Value)) (items : List Value) :
    column i (ls ++ [items]) = column i ls ++ items[i]?.toList := by
  cases h : items[i]? <;> simp [column, h]

theorem Laid.isSome_item_iff (hlaid : Laid item fresh ls old) (h : ReadsAs item fresh view Fits value) (i : Nat)
    (v : Value) : (item ((places old)[i]?.getD fresh) v).isSome ↔ Fits v := h.isSome_read_iff (hlaid.read_column i) v

/-- One more list is read exactly if its items fit. -/
theorem Laid.isSome_itemsOver_iff (hlaid : Laid item fresh ls old) (h : ReadsAs item fresh view Fits value)
    (values : List Value) : (itemsOver fresh item values (places old)).isSome ↔ ∀ v ∈ values, Fits v := by
  constructor
  · intro hsome v hv
    obtain ⟨xs, hxs⟩ := Option.isSome_iff_exists.mp hsome
    obtain ⟨hlength, hread⟩ := itemsOver_eq_some hxs
    obtain ⟨i, hi, rfl⟩ := List.mem_iff_getElem.mp hv
    rw [← hlaid.isSome_item_iff h i, hread (List.getElem?_eq_getElem hi)]
    simpa [hlength] using hi
  · intro hfits
    refine Option.isSome_iff_exists.mpr (exists_itemsOver fun {i v} hv => ?_)
    exact (hlaid.isSome_item_iff h i v).mpr (hfits v (List.mem_of_getElem? hv))

/-- After one more list every place holds what the lists have there. -/
theorem Laid.append (hlaid : Laid item fresh ls old) {values : List Value} {xs : List α}
    (hxs : itemsOver fresh item values (places old) = some xs) :
    Laid item fresh (some (ls.getD [] ++ [values])) (some { items := xs, spare := (places old).drop xs.length }) := by
  obtain ⟨hlength, hread⟩ := itemsOver_eq_some hxs
  refine ⟨by simp [hlength], fun i => ?_⟩
  have hplaces : places (some { items := xs, spare := (places old).drop xs.length })
      = xs ++ (places old).drop xs.length := rfl
  rw [Option.getD_some, column_append, readOver_append, hlaid.read_column, Option.bind_some, hplaces]
  cases hv : values[i]? with
  | none =>
    have hi : xs.length ≤ i := by simpa [hlength] using hv
    simp [List.getElem?_append_right hi, List.getElem?_drop, Nat.add_sub_cancel' hi]
  | some v =>
    have hi : i < xs.length := by
      rw [hlength]
      exact (List.getElem?_eq_some_iff.mp hv).1
    simp [hread hv, List.getElem?_append_left hi, List.getElem?_eq_getElem hi]

theorem Laid.isSome_listOver_iff (hlaid : Laid item fresh ls old) (h : ReadsAs item fresh view Fits value) (v : Value) :
    (listOver fresh item old v).isSome ↔ FitsList Fits v := by
  cases v with
  | null => exact iff_of_true rfl .null
  | list items =>
    cases items with
    | nil => exact iff_of_true rfl (.list (List.forall_mem_nil _))
    | cons v values => rw [listOver_cons, Option.isSome_map, hlaid.isSome_itemsOver_iff h, fitsList_list]
  | truth | number | text | table => exact iff_of_false Bool.false_ne_true (by rintro ⟨⟩)

theorem Laid.step (hlaid : Laid item fresh ls old) {v : Value} {new : Option (Slots α)}
    (h : listOver fresh item old v = some new) : Laid item fresh (layOver ls v) new := by
  cases v with
  | null =>
    cases h
    exact laid_none
  | list items =>
    cases items with
    | nil =>
      cases h
      exact laid_empty
    | cons v values =>
      rw [listOver_cons] at h
      obtain ⟨xs, hxs, rfl⟩ := Option.map_eq_some_iff.mp h
      exact hlaid.append hxs
  | truth | number | text | table => cases h

/-- The items in the places are those that the lists have laid over each other. -/
theorem Laid.items_eq (hlaid : Laid item fresh ls old) (h : ReadsAs item fresh view Fits value) :
    (old.map fun slots => slots.items.map view)
      = ls.map fun ls => (List.range (ls.getLast?.getD []).length).map fun i => value (column i ls) := by
  obtain ⟨hlength, hread⟩ := hlaid
  cases old with
  | none =>
    cases ls with
    | none => rfl
    | some ls => cases hlength
  | some slots =>
    cases ls with
    | none => cases hlength
    | some ls =>
      have hlength := Option.some.inj hlength
      refine congrArg some (List.ext_getElem (by simpa using hlength) fun i hi _ => ?_)
      have hi : i < slots.items.length := by simpa using hi
      have hitem : (places (some slots))[i]?.getD fresh = slots.items[i] := by
        simp [places, List.getElem?_append_left hi, List.getElem?_eq_getElem hi]
      rw [List.getElem_map, List.getElem_map, List.getElem_range]
      exact h.view_eq (by rw [← hitem]; exact hread i)

theorem readsAs_listOver (h : ReadsAs item fresh view Fits value) :
    ReadsAs (listOver fresh item) none (Option.map fun slots => slots.items.map view) (FitsList Fits)
      (overlaid value) :=
  .of_step (Laid item fresh) layOver laid_none (fun hlaid => hlaid.isSome_listOver_iff h) (fun hlaid => hlaid.step)
    fun hlaid => hlaid.items_eq h

example : overlaid (lastOf Value.text? []) [.list [.text (utf8 "a"), .text (utf8 "b")], .list [.null]]
    = some [utf8 "a"] := rfl

end

/-! ### Tables -/

/-- The values of a field, in order. -/
def valuesOf (name : String) (entries : List (Bytes × Value)) : List Value :=
  (entries.filter fun e => keyIs name e.1).map Prod.snd

/-- A table with a condition on every value of some fields, or null. -/
inductive FitsTable (fields : List (String × (Value → Prop))) : Value → Prop
  | null : FitsTable fields .null
  | table {entries : List (Bytes × Value)} (h : ∀ f ∈ fields, ∀ v ∈ valuesOf f.1 entries, f.2 v) :
    FitsTable fields (.table entries)

/-- The entries of a table, those of null none. -/
def entriesOf : Value → List (Bytes × Value)
  | .table entries => entries
  | _ => []

theorem valuesOf_append (name : String) (es fs : List (Bytes × Value)) :
    valuesOf name (es ++ fs) = valuesOf name es ++ valuesOf name fs := by
  simp [valuesOf]

theorem valuesOf_single (name : String) (key : Bytes) (v : Value) :
    valuesOf name [(key, v)] = if keyIs name key then [v] else [] := by
  cases h : keyIs name key <;> simp [valuesOf, h]

section
variable {α β : Type} {entry : α → Bytes → Value → Option α} {fresh : α} {view : α → β}

theorem entriesOver_append (es fs : List (Bytes × Value)) (x : α) :
    entriesOver entry (es ++ fs) x = (entriesOver entry es x).bind (entriesOver entry fs) := by
  induction es generalizing x with
  | nil => rfl
  | cons e es ih => simp [entriesOver, ih, Option.bind_assoc]

theorem tableOver_eq_some_iff {old x : α} {v : Value} : tableOver entry old v = some x ↔
    FitsTable [] v ∧ entriesOver entry (entriesOf v) old = some x := by
  cases v with
  | null => exact (and_iff_right .null).symm
  | table entries => exact (and_iff_right (.table (List.forall_mem_nil _))).symm
  | truth | number | text | list => exact iff_of_false (by rintro ⟨⟩) (by rintro ⟨⟨⟩, -⟩)

/-- Tables one over the other are read as one table with the entries of all. -/
theorem readOver_tableOver {vs : List Value} {old x : α} : readOver (tableOver entry) old vs = some x ↔
    (∀ v ∈ vs, FitsTable [] v) ∧ entriesOver entry (vs.flatMap entriesOf) old = some x := by
  induction vs generalizing old with
  | nil => simp [entriesOver]
  | cons v vs ih =>
    simp only [readOver_cons, Option.bind_eq_some_iff, tableOver_eq_some_iff, ih, List.forall_mem_cons, List.flatMap_cons,
      entriesOver_append]
    constructor
    · rintro ⟨y, ⟨hv, hy⟩, hvs, hx⟩
      exact ⟨⟨hv, hvs⟩, y, hy, hx⟩
    · rintro ⟨⟨hv, hvs⟩, y, hy, hx⟩
      exact ⟨y, ⟨hv, hy⟩, hvs, hx⟩

theorem fitsTable_iff {fields : List (String × (Value → Prop))} {v : Value} : FitsTable fields v ↔
    FitsTable [] v ∧ ∀ f ∈ fields, ∀ w ∈ valuesOf f.1 (entriesOf v), f.2 w := by
  cases v with
  | null => exact iff_of_true .null ⟨.null, fun _ _ => List.forall_mem_nil _⟩
  | table entries =>
    constructor
    · rintro (_ | h)
      exact ⟨.table (List.forall_mem_nil _), h⟩
    · exact fun h => .table h.2
  | truth | number | text | list => exact iff_of_false (by rintro ⟨⟩) (by rintro ⟨⟨⟩, -⟩)

theorem mem_valuesOf_flatMap {name : String} {vs : List Value} {w : Value} :
    w ∈ valuesOf name (vs.flatMap entriesOf) ↔ ∃ v ∈ vs, w ∈ valuesOf name (entriesOf v) := by
  induction vs with
  | nil => simp [valuesOf]
  | cons v vs ih => simp [valuesOf_append, ih]

theorem forall_fitsTable_iff {fields : List (String × (Value → Prop))} {vs : List Value} :
    (∀ v ∈ vs, FitsTable fields v) ↔
      (∀ v ∈ vs, FitsTable [] v) ∧ ∀ f ∈ fields, ∀ w ∈ valuesOf f.1 (vs.flatMap entriesOf), f.2 w := by
  constructor
  · intro h
    refine ⟨fun v hv => (fitsTable_iff.mp (h v hv)).1, fun f hf w hw => ?_⟩
    obtain ⟨v, hv, hw⟩ := mem_valuesOf_flatMap.mp hw
    exact (fitsTable_iff.mp (h v hv)).2 f hf w hw
  · rintro ⟨htables, hfields⟩ v hv
    exact fitsTable_iff.mpr ⟨htables v hv, fun f hf w hw => hfields f hf w (mem_valuesOf_flatMap.mpr ⟨v, hv, hw⟩)⟩

/-- A reader of entries that looks at some fields only is a reader of tables. -/
theorem readsAs_tableOver {fields : List (String × (Value → Prop))} {make : List (Bytes × Value) → β}
    (hfits : ∀ es, (entriesOver entry es fresh).isSome ↔ ∀ f ∈ fields, ∀ v ∈ valuesOf f.1 es, f.2 v)
    (hmake : ∀ {es x}, entriesOver entry es fresh = some x → view x = make es) :
    ReadsAs (tableOver entry) fresh view (FitsTable fields) fun vs => make (vs.flatMap entriesOf) where
  isSome_iff vs := by
    rw [forall_fitsTable_iff, ← hfits]
    simp only [Option.isSome_iff_exists, readOver_tableOver, exists_and_left]
  view_eq h := hmake (readOver_tableOver.mp h).2

end

/-! ### Drafts field by field -/

/-- A field of a draft: its name, how a value is read over it, and its place in the draft. -/
structure Field (α : Type) where
  {Kind : Type}
  name : String
  read : Kind → Value → Option Kind
  get : α → Kind
  set : α → Kind → α

/-- A reader of entries that reads fields, each from the entries of its name in any case, and passes over other entries. -/
structure ReadsFields {α : Type} (entry : α → Bytes → Value → Option α) (fields : List (Field α)) : Prop where
  fold : ∀ {key key'}, (∀ name, keyIs name key = keyIs name key') → ∀ x v, entry x key v = entry x key' v
  own : ∀ f ∈ fields, ∀ x v, entry x (utf8 f.name) v = (f.read (f.get x) v).map (f.set x)
  other : ∀ x key v, (∀ f ∈ fields, keyIs f.name key = false) → entry x key v = some x
  get_set : ∀ f ∈ fields, ∀ x a, f.get (f.set x a) = a
  get_set_other : ∀ f ∈ fields, ∀ g ∈ fields, f.name ≠ g.name → ∀ x a, f.get (g.set x a) = f.get x

namespace ReadsFields
variable {α : Type} {entry : α → Bytes → Value → Option α} {fields : List (Field α)} (h : ReadsFields entry fields)
include h

theorem entry_eq {f : Field α} (hf : f ∈ fields) {key : Bytes} (hkey : keyIs f.name key = true) (x : α) (v : Value) :
    entry x key v = (f.read (f.get x) v).map (f.set x) := by
  have hsame : ∀ name, keyIs name key = keyIs name (utf8 f.name) := fun name => by
    rw [keyIs, keyIs, show foldKey key = foldKey (utf8 f.name) from eq_of_beq hkey]
  rw [h.fold hsame, h.own f hf]

/-- An entry is read over the field of its name and leaves the others. -/
theorem get_entry {f : Field α} (hf : f ∈ fields) {x y : α} {key : Bytes} {v : Value} (hentry : entry x key v = some y) :
    readOver f.read (f.get x) (valuesOf f.name [(key, v)]) = some (f.get y) := by
  rw [valuesOf_single]
  split
  · next hkey =>
    rw [h.entry_eq hf hkey, Option.map_eq_some_iff] at hentry
    obtain ⟨a, ha, rfl⟩ := hentry
    rw [h.get_set f hf, readOver_cons, ha]
    rfl
  · next hkey =>
    refine congrArg some ?_
    by_cases hany : ∃ g ∈ fields, keyIs g.name key = true
    · obtain ⟨g, hg, hgkey⟩ := hany
      rw [h.entry_eq hg hgkey, Option.map_eq_some_iff] at hentry
      obtain ⟨a, -, rfl⟩ := hentry
      exact (h.get_set_other f hf g hg (fun hname => hkey (hname ▸ hgkey)) x a).symm
    · rw [h.other x key v fun g hg => Bool.eq_false_iff.mpr fun hgkey => hany ⟨g, hg, hgkey⟩] at hentry
      rw [Option.some.inj hentry]

/-- An entry can be read if the field of its name can take it. -/
theorem isSome_entry (x : α) (key : Bytes) (v : Value) : (entry x key v).isSome ↔
    ∀ f ∈ fields, (readOver f.read (f.get x) (valuesOf f.name [(key, v)])).isSome := by
  constructor
  · intro hsome f hf
    obtain ⟨y, hy⟩ := Option.isSome_iff_exists.mp hsome
    rw [h.get_entry hf hy]
    rfl
  · intro hall
    by_cases hany : ∃ g ∈ fields, keyIs g.name key = true
    · obtain ⟨g, hg, hgkey⟩ := hany
      have hread := hall g hg
      rw [valuesOf_single, if_pos hgkey, readOver_cons] at hread
      rw [h.entry_eq hg hgkey, Option.isSome_map]
      exact Option.isSome_of_isSome_bind hread
    · rw [h.other x key v fun g hg => Bool.eq_false_iff.mpr fun hgkey => hany ⟨g, hg, hgkey⟩]
      rfl

/-- Every field is read from its own values. -/
theorem get_entries {f : Field α} (hf : f ∈ fields) {es : List (Bytes × Value)} {x y : α}
    (hentries : entriesOver entry es x = some y) : readOver f.read (f.get x) (valuesOf f.name es) = some (f.get y) := by
  induction es generalizing x with
  | nil =>
    cases hentries
    rfl
  | cons e es ih =>
    obtain ⟨z, hz, hrest⟩ := Option.bind_eq_some_iff.mp hentries
    rw [← List.singleton_append, valuesOf_append, readOver_append, h.get_entry hf hz]
    exact ih hrest

/-- Entries can be read if every field can take its own values. -/
theorem isSome_entries (es : List (Bytes × Value)) (x : α) : (entriesOver entry es x).isSome ↔
    ∀ f ∈ fields, (readOver f.read (f.get x) (valuesOf f.name es)).isSome := by
  induction es generalizing x with
  | nil => simp [entriesOver, valuesOf]
  | cons e es ih =>
    have hvalues : ∀ f : Field α, readOver f.read (f.get x) (valuesOf f.name (e :: es)) =
        (readOver f.read (f.get x) (valuesOf f.name [e])).bind fun a => readOver f.read a (valuesOf f.name es) := by
      intro f
      rw [← readOver_append, ← valuesOf_append, List.singleton_append]
    simp only [hvalues]
    cases hentry : entry x e.1 e.2 with
    | none =>
      have hnone := mt (h.isSome_entry x e.1 e.2).mpr (by simp [hentry])
      simp only [entriesOver, hentry, Option.bind_none, Option.isSome_none, Bool.false_eq_true, false_iff]
      exact fun hall => hnone fun f hf => Option.isSome_of_isSome_bind (hall f hf)
    | some y =>
      rw [entriesOver, hentry, Option.bind_some, ih]
      refine forall₂_congr fun f hf => ?_
      rw [h.get_entry hf hentry, Option.bind_some]

end ReadsFields

end Wire

end Stopwatch
