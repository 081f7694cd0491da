import Stopwatch.Bench.Stats
import Stopwatch.Proofs.Doubles

/-!
The range of samples. Doubles have two orders here: both ascend through the numbers with -0 before 0; the one for the
least value puts -∞ and then what is no number before all others, the one for the greatest value puts them after all
others, with +∞ last. Picking the lesser or the greater of two values follows these orders, so the range of a list is its
first and its last element, whatever the order in which the samples came.
-/

namespace Stopwatch

open Float.Model Float.Model.UnpackedFloat Rounding

namespace Double

/-! ### Places in the order -/

/-- The place of a double by its bits: from -∞ up to +∞, with -0 just below 0. -/
def place (x : Float) : Int :=
  if 2 ^ 63 ≤ x.toBits.toNat then 2 ^ 63 - 1 - x.toBits.toNat else x.toBits.toNat

theorem place_inj {x y : Float} (h : place x = place y) : x = y := by
  have hx := x.toBits.toNat_lt
  have hy := y.toBits.toNat_lt
  rw [place, place] at h
  refine eq_of_toBits ?_
  split at h <;> split at h <;> omega

/-- What the bits of a finite number hold besides its sign. -/
def fieldOf (m : Nat) (e : Int) : Nat := if m < 2 ^ 52 then m else (e + 1075).toNat * 2 ^ 52 + (m - 2 ^ 52)

section
variable {m : Nat} {e : Int} (hc : IsCanonical m e)
include hc

theorem fieldOf_bounds : 0 < fieldOf m e ∧ fieldOf m e < 2047 * 2 ^ 52 := by
  have hpos := hc.pos
  have hlow := hc.low
  have hhigh := hc.high
  have hlt := hc.lt
  rw [fieldOf]
  split <;> omega

theorem place_finite (negative : Bool) :
    place (assemble (.finite (signOf negative) m e hc.pos)) =
      if negative then -(fieldOf m e : Int) - 1 else fieldOf m e := by
  have hbits := toNat_pack_finite hc negative
  have hbounds := fieldOf_bounds hc
  rw [← fieldOf] at hbits
  rw [place, toNat_toBits_assemble, hbits]
  cases negative <;> simp only [Bool.toNat_false, Bool.toNat_true] <;> split <;> simp <;> omega

theorem fieldOf_lt_iff {m' : Nat} {e' : Int} (hc' : IsCanonical m' e') :
    fieldOf m e < fieldOf m' e' ↔ e < e' ∨ e = e' ∧ m < m' := by
  have hlow := hc.low
  have hlow' := hc'.low
  have hlt := hc.lt
  have hlt' := hc'.lt
  have hnormal := hc.normal
  have hnormal' := hc'.normal
  rw [fieldOf, fieldOf]
  split <;> split <;> omega

/-- Of two finite numbers of one sign the exponents are compared first, then the mantissas. -/
theorem compare_parts_iff {m' : Nat} {e' : Int} (hc' : IsCanonical m' e') :
    (compare e e').then (compare m m') = .lt ↔ fieldOf m e < fieldOf m' e' := by
  rw [fieldOf_lt_iff hc hc', Ordering.then_eq_lt, Int.compare_eq_lt, Int.compare_eq_eq, Nat.compare_eq_lt]

theorem compare_parts_swap_iff {m' : Nat} {e' : Int} (hc' : IsCanonical m' e') :
    ((compare e e').then (compare m m')).swap = .lt ↔ fieldOf m' e' < fieldOf m e := by
  rw [fieldOf_lt_iff hc' hc, Ordering.swap_eq_lt, Ordering.then_eq_gt, Int.compare_eq_gt, Int.compare_eq_eq,
    Nat.compare_eq_gt, eq_comm]

end

theorem place_infinite (negative : Bool) :
    place (assemble (.infinity (signOf negative))) = if negative then -(2047 * 2 ^ 52) - 1 else 2047 * 2 ^ 52 := by
  cases negative <;> rfl

theorem place_zero (negative : Bool) : place (assemble (.zero (signOf negative))) = if negative then -1 else 0 := by
  cases negative <;> rfl

theorem lt_assemble_iff {u v : UnpackedFloat} (hu : IsKind u) (hv : IsKind v) :
    assemble u < assemble v ↔ u.lt v = true := by
  have hparts : assemble u < assemble v ↔ (Float.Model.pack u).unpack.lt (Float.Model.pack v).unpack = true := by
    simp only [LT.lt, Float.lt, decide_eq_true_eq]
    rfl
  rw [hparts, hu.unpack_pack, hv.unpack_pack]

/-- Comparing two numbers compares their places, but for the two zeros, which count as one. -/
theorem lt_iff_place {x y : Float} (hx : x.isNaN = false) (hy : y.isNaN = false) :
    x < y ↔ place x < place y ∧ ¬ (place x = -1 ∧ place y = 0) := by
  obtain ⟨u, hu, rfl⟩ := exists_kind x
  obtain ⟨v, hv, rfl⟩ := exists_kind y
  rw [lt_assemble_iff hu hv]
  cases hu with
  | nan => exact absurd hx (by decide)
  | infinite negative =>
    cases hv with
    | nan => exact absurd hy (by decide)
    | infinite negative' => cases negative <;> cases negative' <;> decide
    | zero negative' => cases negative <;> cases negative' <;> decide
    | finite negative' hc' =>
      have hbounds' := fieldOf_bounds hc'
      rw [place_infinite, place_finite hc']
      cases negative <;> cases negative' <;> simp [UnpackedFloat.lt, UnpackedFloat.compare, signOf] <;> omega
  | zero negative =>
    cases hv with
    | nan => exact absurd hy (by decide)
    | infinite negative' => cases negative <;> cases negative' <;> decide
    | zero negative' => cases negative <;> cases negative' <;> decide
    | finite negative' hc' =>
      have hbounds' := fieldOf_bounds hc'
      rw [place_zero, place_finite hc']
      cases negative <;> cases negative' <;> simp [UnpackedFloat.lt, UnpackedFloat.compare, signOf] <;> omega
  | finite negative hc =>
    have hbounds := fieldOf_bounds hc
    cases hv with
    | nan => exact absurd hy (by decide)
    | infinite negative' =>
      rw [place_infinite, place_finite hc]
      cases negative <;> cases negative' <;> simp [UnpackedFloat.lt, UnpackedFloat.compare, signOf] <;> omega
    | zero negative' =>
      rw [place_zero, place_finite hc]
      cases negative <;> cases negative' <;> simp [UnpackedFloat.lt, UnpackedFloat.compare, signOf] <;> omega
    | finite negative' hc' =>
      have hbounds' := fieldOf_bounds hc'
      rw [place_finite hc, place_finite hc']
      cases negative <;> cases negative' <;> simp [UnpackedFloat.lt, UnpackedFloat.compare, signOf,
        compare_parts_iff hc hc', compare_parts_swap_iff hc hc'] <;> omega

/-- No number lies beyond the infinite ones. -/
theorem place_bounds {x : Float} (hx : x.isNaN = false) :
    -(2047 * 2 ^ 52) - 1 ≤ place x ∧ place x ≤ 2047 * 2 ^ 52 := by
  obtain ⟨u, hu, rfl⟩ := exists_kind x
  cases hu with
  | nan => exact absurd hx (by decide)
  | infinite negative => cases negative <;> decide
  | zero negative => cases negative <;> decide
  | finite negative hc =>
    have hbounds := fieldOf_bounds hc
    rw [place_finite hc]
    cases negative <;> simp <;> omega

theorem beq_zero_iff {x : Float} : (x == 0) = true ↔ x = 0 ∨ x = -0 := by
  constructor
  · intro h
    obtain ⟨u, hu, rfl⟩ := exists_kind x
    have hparts : (assemble u == 0) = (Float.Model.pack u).unpack.beq (.zero .positive) := rfl
    rw [hparts, hu.unpack_pack, beq_iff_ne_notANumber_and_eq] at h
    obtain ⟨-, -, h | ⟨h, -⟩ | ⟨h, -⟩⟩ := h
    · exact .inl (by rw [h]; rfl)
    · exact .inl (by rw [h]; rfl)
    · exact .inr (by rw [h]; rfl)
  · rintro (rfl | rfl) <;> decide

end Double

namespace Stats

open Double

/-! ### The two orders -/

def lowest : Float := -1 / 0

def highest : Float := 1 / 0

/-- Numbers in ascending order, with -0 before 0. -/
def Ascends (x y : Float) : Prop := x < y ∨ x = y ∨ x = -0 ∧ y = 0

/-- The order for the least value: -∞, then what is no number, then the numbers. -/
def LowOrder (x y : Float) : Prop :=
  x = lowest ∨ y ≠ lowest ∧ (x.isNaN = true ∨ y.isNaN = false ∧ Ascends x y)

/-- The order for the greatest value: the numbers, then what is no number, then +∞. -/
def HighOrder (x y : Float) : Prop :=
  y = highest ∨ x ≠ highest ∧ (y.isNaN = true ∨ x.isNaN = false ∧ Ascends x y)

theorem ascends_iff {x y : Float} (hx : x.isNaN = false) (hy : y.isNaN = false) : Ascends x y ↔ place x ≤ place y := by
  have hzero : place (-0) = -1 ∧ place 0 = 0 := ⟨rfl, rfl⟩
  rw [Ascends, lt_iff_place hx hy]
  constructor
  · rintro (⟨hlt, -⟩ | rfl | ⟨rfl, rfl⟩)
    · exact hlt.le
    · exact le_refl _
    · omega
  · intro hle
    rcases hle.lt_or_eq with hlt | heq
    · by_cases hzeros : place x = -1 ∧ place y = 0
      · exact .inr (.inr ⟨place_inj (hzeros.1.trans hzero.1.symm), place_inj (hzeros.2.trans hzero.2.symm)⟩)
      · exact .inl ⟨hlt, hzeros⟩
    · exact .inr (.inl (place_inj heq))

/-- The place of a value in an order in which what is no number has a place between two numbers. -/
def placeWith (nan : Int) (x : Float) : Int := if x.isNaN then nan else 2 * place x

/-- Just above -∞. -/
def nanLow : Int := 2 * (-(2047 * 2 ^ 52) - 1) + 1

/-- Just below +∞. -/
def nanHigh : Int := 2 * (2047 * 2 ^ 52) - 1

theorem placeWith_inj (nan : Int) (hodd : nan % 2 = 1) {x y : Float} (h : placeWith nan x = placeWith nan y) : x = y := by
  rw [placeWith, placeWith] at h
  cases hx : x.isNaN <;> cases hy : y.isNaN <;> simp only [hx, hy, if_true, if_false, Bool.false_eq_true] at h
  · exact place_inj (by omega)
  · omega
  · omega
  · exact (isNaN_iff_eq.mp hx).trans (isNaN_iff_eq.mp hy).symm

theorem eq_lowest_iff {x : Float} : x = lowest ↔ x.isNaN = false ∧ place x = -(2047 * 2 ^ 52) - 1 :=
  ⟨fun h => h ▸ by decide, fun h => place_inj h.2⟩

theorem eq_highest_iff {x : Float} : x = highest ↔ x.isNaN = false ∧ place x = 2047 * 2 ^ 52 :=
  ⟨fun h => h ▸ by decide, fun h => place_inj h.2⟩

theorem lowOrder_iff (x y : Float) : LowOrder x y ↔ placeWith nanLow x ≤ placeWith nanLow y := by
  rw [LowOrder, ne_eq, eq_lowest_iff, eq_lowest_iff, placeWith, placeWith, nanLow]
  cases hx : x.isNaN with
  | true =>
    cases hy : y.isNaN with
    | true => simp
    | false =>
      have hbounds := place_bounds hy
      simp
      omega
  | false =>
    have hbounds := place_bounds hx
    cases hy : y.isNaN with
    | true =>
      simp
      omega
    | false =>
      have hbounds' := place_bounds hy
      simp [ascends_iff hx hy]
      omega

theorem highOrder_iff (x y : Float) : HighOrder y x ↔ -placeWith nanHigh x ≤ -placeWith nanHigh y := by
  rw [HighOrder, ne_eq, eq_highest_iff, eq_highest_iff, placeWith, placeWith, nanHigh]
  cases hx : x.isNaN with
  | true =>
    cases hy : y.isNaN with
    | true => simp
    | false =>
      have hbounds := place_bounds hy
      simp
      omega
  | false =>
    have hbounds := place_bounds hx
    cases hy : y.isNaN with
    | true =>
      simp
      omega
    | false =>
      have hbounds' := place_bounds hy
      simp [ascends_iff hy hx]
      omega

/-! ### Picking one of two -/

theorem isInfinite_iff {x : Float} {negative : Bool} :
    isInfinite negative x = true ↔ x = assemble (.infinity (signOf negative)) := by
  rw [isInfinite, Bool.and_eq_true, isInf_iff_eq, beq_iff_eq]
  constructor
  · rintro ⟨⟨sign, rfl⟩, hsign⟩
    have hown : signed (assemble (.infinity (signOf sign))) = sign := by cases sign <;> decide
    rw [← hsign, hown]
  · rintro rfl
    exact ⟨⟨negative, rfl⟩, by cases negative <;> decide⟩

theorem zeros_iff {x y : Float} : (x == 0 && y == 0) = true ↔ (x = 0 ∨ x = -0) ∧ (y = 0 ∨ y = -0) := by
  rw [Bool.and_eq_true, beq_zero_iff, beq_zero_iff]

/-- Of two numbers that are not both zero, the one is less or does not come after the other. -/
theorem place_le_of_not_lt {x y : Float} (hx : x.isNaN = false) (hy : y.isNaN = false)
    (hzeros : ¬ (x == 0 && y == 0) = true) (h : ¬ x < y) : place y ≤ place x := by
  rw [lt_iff_place hx hy] at h
  by_contra hlt
  have hboth : place x = -1 ∧ place y = 0 := by
    by_contra hneither
    exact h ⟨by omega, hneither⟩
  exact hzeros (zeros_iff.mpr ⟨.inr (place_inj hboth.1), .inl (place_inj hboth.2)⟩)

/-- What comes first of two values, where an infinite one is before all and what is no number before the numbers. -/
theorem picks_special (r : Float → Float → Prop) (edge : Float) {x y picked : Float} (hedge : ∀ v, r edge v)
    (hnan : ∀ u v, u.isNaN = true → v ≠ edge → r u v)
    (hnumbers : x ≠ edge → y ≠ edge → x.isNaN = false → y.isNaN = false → picked = x ∧ r x y ∨ picked = y ∧ r y x)
    {first : Float} (hfirst : first = if x = edge ∨ y = edge then edge else
      if x.isNaN = true ∨ y.isNaN = true then nan else picked) :
    first = x ∧ r x y ∨ first = y ∧ r y x := by
  subst hfirst
  split
  · next hinfinite =>
    rcases hinfinite with rfl | rfl
    · exact .inl ⟨rfl, hedge _⟩
    · exact .inr ⟨rfl, hedge _⟩
  next hfinite =>
  rw [not_or] at hfinite
  split
  · next hone =>
    rcases hone with hx | hy
    · exact .inl ⟨(isNaN_iff_eq.mp hx).symm, hnan _ _ hx hfinite.2⟩
    · exact .inr ⟨(isNaN_iff_eq.mp hy).symm, hnan _ _ hy hfinite.1⟩
  · next hnone =>
    rw [not_or, Bool.not_eq_true, Bool.not_eq_true] at hnone
    exact hnumbers hfinite.1 hfinite.2 hnone.1 hnone.2

theorem lesser_picks (x y : Float) : lesser x y = x ∧ LowOrder x y ∨ lesser x y = y ∧ LowOrder y x := by
  refine picks_special LowOrder lowest (fun v => .inl rfl) (fun u v hu hv => .inr ⟨hv, .inl hu⟩) ?_
    (by simp only [lesser, Bool.or_eq_true, isInfinite_iff]; rfl)
  intro hxe hye hx hy
  have hxy : place x ≤ place y → LowOrder x y := fun h => .inr ⟨hye, .inr ⟨hy, (ascends_iff hx hy).mpr h⟩⟩
  have hyx : place y ≤ place x → LowOrder y x := fun h => .inr ⟨hxe, .inr ⟨hx, (ascends_iff hy hx).mpr h⟩⟩
  split
  · next hzeros =>
    obtain ⟨rfl | rfl, rfl | rfl⟩ := zeros_iff.mp hzeros
    · exact .inr ⟨rfl, hyx (by decide)⟩
    · exact .inr ⟨rfl, hyx (by decide)⟩
    · exact .inl ⟨rfl, hxy (by decide)⟩
    · exact .inl ⟨rfl, hxy (by decide)⟩
  · next hzeros =>
    split
    · next hlt => exact .inl ⟨rfl, hxy ((lt_iff_place hx hy).mp hlt).1.le⟩
    · next hlt => exact .inr ⟨rfl, hyx (place_le_of_not_lt hx hy hzeros hlt)⟩

theorem greater_picks (x y : Float) : greater x y = x ∧ HighOrder y x ∨ greater x y = y ∧ HighOrder x y := by
  refine picks_special (fun u v => HighOrder v u) highest (fun v => .inl rfl)
    (fun u v hu hv => .inr ⟨hv, .inl hu⟩) ?_ (by simp only [greater, Bool.or_eq_true, isInfinite_iff]; rfl)
  intro hxe hye hx hy
  have hxy : place x ≤ place y → HighOrder x y := fun h => .inr ⟨hxe, .inr ⟨hx, (ascends_iff hx hy).mpr h⟩⟩
  have hyx : place y ≤ place x → HighOrder y x := fun h => .inr ⟨hye, .inr ⟨hy, (ascends_iff hy hx).mpr h⟩⟩
  split
  · next hzeros =>
    obtain ⟨rfl | rfl, rfl | rfl⟩ := zeros_iff.mp hzeros
    · exact .inl ⟨rfl, hyx (by decide)⟩
    · exact .inl ⟨rfl, hyx (by decide)⟩
    · exact .inr ⟨rfl, hxy (by decide)⟩
    · exact .inr ⟨rfl, hxy (by decide)⟩
  · next hzeros =>
    rw [Bool.and_comm] at hzeros
    split
    · next hlt => exact .inl ⟨rfl, hyx ((lt_iff_place hy hx).mp hlt).1.le⟩
    · next hlt => exact .inr ⟨rfl, hxy (place_le_of_not_lt hy hx hzeros hlt)⟩

/-! ### The range of a list -/

/-- The element of a list that stands before all others in an order. -/
def IsFirst (r : Float → Float → Prop) (values : List Float) (first : Float) : Prop :=
  first ∈ values ∧ ∀ v ∈ values, r first v

section
variable {r : Float → Float → Prop} {key : Float → Int} (hr : ∀ x y, r x y ↔ key x ≤ key y)
include hr

/-- Picking the first of two again and again leads to the first of all. -/
theorem isFirst_foldl {pick : Float → Float → Float} (hpick : ∀ x y, pick x y = x ∧ r x y ∨ pick x y = y ∧ r y x)
    (v : Float) (vs : List Float) : IsFirst r (v :: vs) (vs.foldl pick v) := by
  induction vs generalizing v with
  | nil => exact ⟨List.mem_singleton_self v, by simp [hr]⟩
  | cons w ws ih =>
    obtain ⟨hmem, hfirst⟩ := ih (pick v w)
    have hbefore : ∀ u, r (pick v w) u → r (ws.foldl pick (pick v w)) u := by
      intro u hu
      rw [hr] at hu ⊢
      exact le_trans ((hr _ _).mp (hfirst _ List.mem_cons_self)) hu
    have hself : r (pick v w) (pick v w) := (hr _ _).mpr (le_refl _)
    rw [List.foldl_cons]
    rcases hpick v w with ⟨heq, hle⟩ | ⟨heq, hle⟩
    · rw [heq] at hmem hfirst hbefore hself ⊢
      refine ⟨?_, fun u hu => ?_⟩
      · simp only [List.mem_cons] at hmem ⊢
        tauto
      · simp only [List.mem_cons] at hu
        rcases hu with rfl | rfl | hu
        · exact hbefore _ hself
        · exact hbefore _ hle
        · exact hfirst u (List.mem_cons_of_mem _ hu)
    · rw [heq] at hmem hfirst hbefore hself ⊢
      refine ⟨List.mem_cons_of_mem _ hmem, fun u hu => ?_⟩
      rcases List.mem_cons.mp hu with rfl | hu
      · exact hbefore _ hle
      · exact hfirst u hu

/-- There is only one first element, in whatever order a list is given. -/
theorem IsFirst.unique (hinj : ∀ x y, key x = key y → x = y) {values other : List Float} {first first' : Float}
    (h : IsFirst r values first) (h' : IsFirst r other first') (hperm : other.Perm values) : first' = first := by
  have hle := (hr _ _).mp (h.2 first' (hperm.mem_iff.mp h'.1))
  have hge := (hr _ _).mp (h'.2 first (hperm.mem_iff.mpr h.1))
  exact hinj _ _ (by omega)

end

/-- The range of a list that is not empty: its first element in the order for the least value, and the last one in the
order for the greatest. -/
theorem isFirst_range {values : List Float} (hne : values ≠ []) :
    IsFirst LowOrder values (range values).1 ∧ IsFirst (fun x y => HighOrder y x) values (range values).2 := by
  cases values with
  | nil => exact absurd rfl hne
  | cons v vs =>
    exact ⟨isFirst_foldl lowOrder_iff lesser_picks v vs, isFirst_foldl highOrder_iff greater_picks v vs⟩

/-- The range of samples does not depend on their order: of no samples it is twice zero, and otherwise its ends are the
sample that comes first in the order for the least value and the one that comes last in the order for the greatest. -/
theorem range_order_free (values : List Float) :
    (∀ other : List Float, other.Perm values → range other = range values) ∧
    (values = [] → range values = (0, 0)) ∧
    (values ≠ [] →
      ((range values).1 ∈ values ∧ ∀ v ∈ values, LowOrder (range values).1 v) ∧
      (range values).2 ∈ values ∧ ∀ v ∈ values, HighOrder v (range values).2) := by
  refine ⟨fun other hperm => ?_, fun h => h ▸ rfl, isFirst_range⟩
  rcases eq_or_ne values [] with rfl | hne
  · rw [hperm.eq_nil]
  · have hne' : other ≠ [] := fun h => hne (hperm.symm.trans (h ▸ .nil)).eq_nil
    obtain ⟨hlow, hhigh⟩ := isFirst_range hne
    obtain ⟨hlow', hhigh'⟩ := isFirst_range hne'
    refine Prod.ext ?_ ?_
    · exact hlow.unique lowOrder_iff (fun x y h => placeWith_inj nanLow (by decide) h) hlow' hperm
    · exact hhigh.unique highOrder_iff (fun x y h => placeWith_inj nanHigh (by decide) (neg_inj.mp h)) hhigh' hperm

/-- Samples with all that is special among doubles, in two orders. -/
theorem range_order_free_mixed :
    let values : List Float := [0, nan, -0, lowest, 1]
    range values = (lowest, nan) ∧ range values.reverse = range values ∧ range [-0, 0] = (-0, 0) ∧
    range [0, -0] = range [-0, 0] ∧ LowOrder (range [-0, 0]).1 0 ∧ HighOrder 1 (range values).2 := by
  intro values
  obtain ⟨hperm, -, hfirst⟩ := range_order_free values
  obtain ⟨hpermZero, -, hfirstZero⟩ := range_order_free [-0, 0]
  refine ⟨rfl, hperm _ (List.reverse_perm values), rfl, hpermZero _ (.swap _ _ _), ?_, ?_⟩
  · exact (hfirstZero (List.cons_ne_nil _ _)).1.2 0 (by simp)
  · exact (hfirst (List.cons_ne_nil _ _)).2.2 1 (by simp [values])

end Stats

end Stopwatch
