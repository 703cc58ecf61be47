import InputGauge.Binary64.Value
import Mathlib

/-!
# The orders on doubles

`<` and `≤` on doubles are not orders: not-a-number is neither below nor above anything, itself
included, and the two zeros are neither below nor above each other. Apart from not-a-number they
come from a linear order all the same: every double has a place (`place`), first by its class, then
by its exponent, then by its mantissa, and `<` and `≤` compare places (`lt_iff`, `le_iff`).

So `<` is irreflexive and transitive on all doubles, and what is not below is above unless one of
the two is not a number. A double that is raised whenever a higher one is found is the highest of
all that were found (`IsHighest.raise`). The total order, by contrast, tells every two doubles apart
(`atMost_antisymm`).
-/

namespace InputGauge.Binary64

open Float.Model Float.Model.UnpackedFloat

/-- Where a number stands: its class, from minus to plus infinity, then the exponent and the
mantissa, which count down below zero. Not-a-number has no place of its own. -/
def placeOf : UnpackedFloat → ℤ ×ₗ ℤ ×ₗ ℤ
  | .infinity .negative => toLex (-2, toLex (0, 0))
  | .finite .negative m e _ => toLex (-1, toLex (-e, -m))
  | .zero _ | .notANumber => toLex (0, toLex (0, 0))
  | .finite .positive m e _ => toLex (1, toLex (e, m))
  | .infinity .positive => toLex (2, toLex (0, 0))

/-- Where a double stands. -/
def place (x : Float) : ℤ ×ₗ ℤ ×ₗ ℤ := placeOf x.toModel.unpack

/-! ## Numbers that are not packed -/

section Unpacked

variable {x y : UnpackedFloat} (hx : x.isNaN = false) (hy : y.isNaN = false)

theorem then_compare_eq_lt_iff (e e' : Int) (m m' : Nat) :
    (compare e e').then (compare m m') = .lt ↔ e < e' ∨ e = e' ∧ m < m' := by
  rw [Ordering.then_eq_lt, Int.compare_eq_lt, Int.compare_eq_eq, Nat.compare_eq_lt]

theorem then_compare_eq_gt_iff (e e' : Int) (m m' : Nat) :
    (compare e e').then (compare m m') = .gt ↔ e' < e ∨ e = e' ∧ m' < m := by
  rw [Ordering.then_eq_gt, Int.compare_eq_gt, Int.compare_eq_eq, Nat.compare_eq_gt]

theorem isLE_then_compare_iff (e e' : Int) (m m' : Nat) :
    ((compare e e').then (compare m m')).isLE ↔ e < e' ∨ e = e' ∧ m ≤ m' := by
  rw [Ordering.isLE_then_iff_or, Int.compare_eq_lt, Int.compare_eq_eq, Nat.isLE_compare]

theorem isGE_then_compare_iff (e e' : Int) (m m' : Nat) :
    ((compare e e').then (compare m m')).isGE ↔ e' < e ∨ e = e' ∧ m' ≤ m := by
  rw [Ordering.isGE_iff_ne_lt, then_compare_eq_lt_iff]
  omega

theorem compare_self (s : Sign) : compare s s = .eq := by
  cases s <;> rfl

theorem compare_negative_positive : compare Sign.negative Sign.positive = .lt := rfl

theorem compare_positive_negative : compare Sign.positive Sign.negative = .gt := rfl

include hx hy in
theorem lt_iff_placeOf : x.lt y = true ↔ placeOf x < placeOf y := by
  rw [UnpackedFloat.lt, beq_iff_eq]
  rcases x with (_ | _) | _ | _ | ⟨_ | _, m, e, _⟩ <;>
    rcases y with (_ | _) | _ | _ | ⟨_ | _, m', e', _⟩ <;>
    simp [UnpackedFloat.compare, placeOf, Prod.Lex.toLex_lt_toLex, UnpackedFloat.isNaN,
      then_compare_eq_lt_iff, then_compare_eq_gt_iff, compare_negative_positive,
      compare_positive_negative] at hx hy ⊢

include hx hy in
theorem le_iff_placeOf : x.le y = true ↔ placeOf x ≤ placeOf y := by
  rw [UnpackedFloat.le]
  rcases x with (_ | _) | _ | _ | ⟨_ | _, m, e, _⟩ <;>
    rcases y with (_ | _) | _ | _ | ⟨_ | _, m', e', _⟩ <;>
    simp [UnpackedFloat.compare, placeOf, Prod.Lex.toLex_le_toLex, UnpackedFloat.isNaN,
      isLE_then_compare_iff, isGE_then_compare_iff, compare_self, compare_negative_positive,
      compare_positive_negative] at hx hy ⊢

end Unpacked

theorem lt_notANumber {x y : UnpackedFloat} (h : x.isNaN = true ∨ y.isNaN = true) :
    x.lt y = false := by
  rcases x with (_ | _) | _ | _ | ⟨_ | _, m, e, _⟩ <;>
    rcases y with (_ | _) | _ | _ | ⟨_ | _, m', e', _⟩ <;>
    simp_all [UnpackedFloat.lt, UnpackedFloat.compare, UnpackedFloat.isNaN]

theorem le_notANumber {x y : UnpackedFloat} (h : x.isNaN = true ∨ y.isNaN = true) :
    x.le y = false := by
  rcases x with (_ | _) | _ | _ | ⟨_ | _, m, e, _⟩ <;>
    rcases y with (_ | _) | _ | _ | ⟨_ | _, m', e', _⟩ <;>
    simp_all [UnpackedFloat.le, UnpackedFloat.compare, UnpackedFloat.isNaN]

/-! ## Doubles -/

variable {x y z : Float}

theorem lt_iff_unpack : x < y ↔ x.toModel.unpack.lt y.toModel.unpack = true := by
  show decide (x.toModel < y.toModel) = true ↔ _
  rw [decide_eq_true_eq]
  rfl

theorem le_iff_unpack : x ≤ y ↔ x.toModel.unpack.le y.toModel.unpack = true := by
  show decide (x.toModel ≤ y.toModel) = true ↔ _
  rw [decide_eq_true_eq]
  rfl

/-- `<` on doubles compares places, not-a-number apart. -/
theorem lt_iff : x < y ↔ x.isNaN = false ∧ y.isNaN = false ∧ place x < place y := by
  rw [lt_iff_unpack]
  constructor
  · intro below
    have known : ¬ (x.isNaN = true ∨ y.isNaN = true) := by
      intro h
      rw [lt_notANumber h] at below
      cases below
    obtain ⟨hx, hy⟩ := not_or.mp known
    rw [Bool.not_eq_true] at hx hy
    exact ⟨hx, hy, (lt_iff_placeOf hx hy).mp below⟩
  · rintro ⟨hx, hy, below⟩
    exact (lt_iff_placeOf hx hy).mpr below

/-- `≤` on doubles compares places, not-a-number apart. -/
theorem le_iff : x ≤ y ↔ x.isNaN = false ∧ y.isNaN = false ∧ place x ≤ place y := by
  rw [le_iff_unpack]
  constructor
  · intro atMost
    have known : ¬ (x.isNaN = true ∨ y.isNaN = true) := by
      intro h
      rw [le_notANumber h] at atMost
      cases atMost
    obtain ⟨hx, hy⟩ := not_or.mp known
    rw [Bool.not_eq_true] at hx hy
    exact ⟨hx, hy, (le_iff_placeOf hx hy).mp atMost⟩
  · rintro ⟨hx, hy, atMost⟩
    exact (le_iff_placeOf hx hy).mpr atMost

theorem isNaN_of_isFinite (h : x.isFinite = true) : x.isNaN = false := by
  have finite : x.toModel.unpack.isFinite = true := h
  show x.toModel.unpack.isNaN = false
  rcases unpacked : x.toModel.unpack with _ | _ | _ | _
  · rfl
  · rw [unpacked] at finite
    cases finite
  · rfl
  · rfl

theorem lt_irrefl (x : Float) : ¬ x < x :=
  fun below => (lt_iff.mp below).2.2.false

theorem lt_trans (hxy : x < y) (hyz : y < z) : x < z := by
  obtain ⟨hx, _, hxy⟩ := lt_iff.mp hxy
  obtain ⟨_, hz, hyz⟩ := lt_iff.mp hyz
  exact lt_iff.mpr ⟨hx, hz, hxy.trans hyz⟩

theorem le_refl (hx : x.isNaN = false) : x ≤ x :=
  le_iff.mpr ⟨hx, hx, le_rfl⟩

theorem le_of_lt (h : x < y) : x ≤ y := by
  obtain ⟨hx, hy, below⟩ := lt_iff.mp h
  exact le_iff.mpr ⟨hx, hy, below.le⟩

theorem le_trans (hxy : x ≤ y) (hyz : y ≤ z) : x ≤ z := by
  obtain ⟨hx, _, hxy⟩ := le_iff.mp hxy
  obtain ⟨_, hz, hyz⟩ := le_iff.mp hyz
  exact le_iff.mpr ⟨hx, hz, hxy.trans hyz⟩

/-- Not-a-number apart, what is not below is above or level. -/
theorem le_of_not_lt (hx : x.isNaN = false) (hy : y.isNaN = false) (h : ¬ x < y) : y ≤ x := by
  refine le_iff.mpr ⟨hy, hx, not_lt.mp fun below => h ?_⟩
  exact lt_iff.mpr ⟨hx, hy, below⟩

theorem not_lt_of_le (h : x ≤ y) : ¬ y < x := fun below =>
  not_lt.mpr (le_iff.mp h).2.2 (lt_iff.mp below).2.2

theorem pos_of_unpack {m : Nat} {e : Int} {h : 0 < m}
    (unpacked : x.toModel.unpack = .finite .positive m e h) : 0.0 < x := by
  have known : x.isNaN = false := by
    show x.toModel.unpack.isNaN = false
    rw [unpacked]
    rfl
  have above : placeOf (.zero .positive) < placeOf (.finite .positive m e h) := by
    rw [placeOf, placeOf, Prod.Lex.toLex_lt_toLex]
    exact .inl Int.one_pos
  refine lt_iff.mpr ⟨rfl, known, ?_⟩
  rw [place, place, unpacked]
  exact above

/-! ## The highest of some doubles -/

/-- A double that is one of some candidates and at least as high as each of them. -/
def IsHighest (x : Float) (candidates : List Float) : Prop :=
  x ∈ candidates ∧ ∀ y ∈ candidates, y ≤ x

/-- A double, or another one that was found, if that is higher. -/
def raise (x : Float) (found : Option Float) : Float :=
  found.elim x fun y => if x < y then y else x

theorem le_raise (hx : x.isNaN = false) (found : Option Float) : x ≤ raise x found := by
  rcases found with _ | y
  · exact le_refl hx
  · rw [raise, Option.elim_some]
    split
    · next higher => exact le_of_lt higher
    · exact le_refl hx

theorem found_le_raise (hx : x.isNaN = false) (hy : y.isNaN = false) : y ≤ raise x (some y) := by
  rw [raise, Option.elim_some]
  split
  · exact le_refl hy
  · next notHigher => exact le_of_not_lt hx hy notHigher

theorem raise_mem (x y : Float) : raise x (some y) = x ∨ raise x (some y) = y := by
  rw [raise, Option.elim_some]
  split
  · exact .inr rfl
  · exact .inl rfl

theorem IsHighest.isNaN {candidates : List Float} (h : IsHighest x candidates) :
    x.isNaN = false :=
  (le_iff.mp (h.2 x h.1)).1

/-- Raised by one more candidate, the highest is again the highest. -/
theorem IsHighest.raise {candidates : List Float} {found : Option Float}
    (h : IsHighest x candidates) (known : ∀ y ∈ found, y.isNaN = false) :
    IsHighest (raise x found) (candidates ++ found.toList) := by
  rcases found with _ | y
  · rw [Option.toList_none, List.append_nil]
    exact h
  · refine ⟨?_, fun z mem => ?_⟩
    · rcases raise_mem x y with same | same
      · rw [same]
        exact List.mem_append_left _ h.1
      · rw [same]
        exact List.mem_append_right _ List.mem_cons_self
    · rcases List.mem_append.mp mem with earlier | new
      · exact le_trans (h.2 z earlier) (le_raise h.isNaN _)
      · rw [List.mem_singleton.mp new]
        exact found_le_raise h.isNaN (known y rfl)

/-- If all other candidates are one and the same and above zero, it is the highest. -/
theorem IsHighest.eq_of_replicate {k : Nat} (h : IsHighest x (0.0 :: List.replicate k y))
    (above : 0 < k → 0.0 < y) : x = if k = 0 then 0.0 else y := by
  split
  · next none =>
    rw [none] at h
    exact List.mem_singleton.mp h.1
  · next some =>
    have mem : y ∈ List.replicate k y := List.mem_replicate.mpr ⟨some, rfl⟩
    rcases List.mem_cons.mp h.1 with zero | found
    · have least : y ≤ 0.0 := zero ▸ h.2 y (List.mem_cons_of_mem _ mem)
      exact absurd (above (Nat.pos_of_ne_zero some)) (not_lt_of_le least)
    · exact List.eq_of_mem_replicate found

/-! ## The total order -/

theorem rank_injective (h : rank x = rank y) : x = y := by
  have bits : x.toBits.toNat = y.toBits.toNat := by
    unfold rank at h
    simp only at h
    split at h <;> split at h <;> omega
  exact Float.toBits_inj.mp (UInt64.toNat_inj.mp bits)

/-- The total order tells every two doubles apart. -/
theorem atMost_antisymm (hxy : atMost x y) (hyx : atMost y x) : x = y := by
  simp only [atMost, decide_eq_true_eq] at hxy hyx
  exact rank_injective (Int.le_antisymm hxy hyx)

end InputGauge.Binary64
