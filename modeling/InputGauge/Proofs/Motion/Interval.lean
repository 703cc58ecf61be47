import InputGauge.Motion.Interval
import InputGauge.Proofs.Binary64.Whole
import InputGauge.Proofs.Ring

/-!
# The report interval of a window

A ring of times gives the same interval wherever its cursor stands: its pairs of neighbouring slots
are the pairs of neighbours in the order of arrival, with the seam between the newest and the
oldest, and the sort forgets in which order they were found (`ReportTimes.frequency_eq`).

`frequencyOf` is that interval, as a frequency, for a window of times that are still whole numbers.
For times below 2⁵³ a ring that holds them agrees with it (`ReportTimes.frequency_of_times`).
-/

namespace InputGauge

open Binary64

variable {α : Type} [LT α] [DecidableLT α] [Sub α]

/-- The differences of neighbouring values, where they rise. -/
def rises (values : List α) : List α :=
  ((neighbours values).filter fun pair => pair.1 < pair.2).map fun pair => pair.2 - pair.1

/-- Reports per second at the middle one of the sorted rises of a window, if there are enough. -/
def frequencyOf (window : List UInt64) : Option Float :=
  ((rises window).mergeSort fun a b => a ≤ b)[ReportTimes.middle]?.map fun gap =>
    1000000.0 / gap.toFloat

/-! ## How many neighbours rise -/

omit [DecidableLT α] [Sub α] in
/-- Values that rise from each to the next rise from the first to the last. -/
theorem lt_of_zip_rises (trans : ∀ {x y z : α}, x < y → y < z → x < z) (first : α)
    (between : List α) (last : α)
    (rise : ∀ pair ∈ (first :: between).zip (between ++ [last]), pair.1 < pair.2) :
    first < last := by
  induction between generalizing first with
  | nil => exact rise (first, last) (List.mem_singleton.mpr rfl)
  | cons next between ih =>
    have step : first < next := rise (first, next) List.mem_cons_self
    exact trans step (ih next fun pair mem => rise pair (List.mem_cons_of_mem _ mem))

/-- Going once round, not every pair of neighbours rises. -/
theorem length_rises_lt (irrefl : ∀ x : α, ¬ x < x) (trans : ∀ {x y z : α}, x < y → y < z → x < z)
    {values : List α} (nonempty : values ≠ []) : (rises values).length < values.length := by
  obtain ⟨first, rest, rfl⟩ := List.exists_cons_of_ne_nil nonempty
  have pairs : neighbours (first :: rest) = (first :: rest).zip (rest ++ [first]) := by
    rw [neighbours, List.rotate_cons_succ, List.rotate_zero]
  have length : (neighbours (first :: rest)).length = (first :: rest).length := by
    simp [neighbours]
  rw [rises, List.length_map, ← length]
  refine List.length_filter_lt_length_iff_exists.mpr ?_
  -- Otherwise the first value rises to the last, and by the seam from there to itself.
  by_contra all
  refine irrefl first (lt_of_zip_rises trans first rest first fun pair mem => ?_)
  by_contra level
  exact all ⟨pair, pairs ▸ mem, by simpa using level⟩

/-! ## The cursor does not matter -/

theorem mergeSort_atMost_eq_of_perm {l l' : List Float} (perm : l.Perm l') :
    l.mergeSort atMost = l'.mergeSort atMost := by
  have sorted (l : List Float) : (l.mergeSort atMost).Pairwise fun a b => atMost a b :=
    @List.pairwise_mergeSort _ atMost (fun _ _ _ => atMost_trans) atMost_total l
  have again := (List.mergeSort_perm l atMost).trans perm
  have same := again.trans (List.mergeSort_perm l' atMost).symm
  exact same.eq_of_pairwise (fun _ _ _ _ => atMost_antisymm) (sorted l) (sorted l')

/-- Rotated values have the same neighbours. -/
theorem rises_perm_of_isRotated {values values' : List α} (h : values.IsRotated values') :
    (rises values).Perm (rises values') := by
  obtain ⟨k, rfl⟩ := h
  rw [rises, rises, neighbours_rotate]
  exact ((List.rotate_perm _ k).symm.filter _).map _

namespace ReportTimes

theorem rises_slots (times : ReportTimes) :
    (times.cyclicPairs.filter fun pair => pair.1 < pair.2).map (fun pair => pair.2 - pair.1) =
      rises times.slots.toList := by
  rw [Ring.cyclicPairs_eq]
  rfl

theorem length_rises_slots (times : ReportTimes) : (rises times.slots.toList).length ≤ 31 := by
  have nonempty : times.slots.toList ≠ [] := by
    rw [← List.length_pos_iff, Vector.length_toList]
    decide
  have few := length_rises_lt lt_irrefl lt_trans nonempty
  rw [Vector.length_toList] at few
  exact Nat.le_of_lt_succ few

/-- The room for 31 intervals is enough. -/
theorem intervals_eq (times : ReportTimes) : times.intervals = rises times.slots.toList := by
  rw [intervals, rises_slots, List.take_of_length_le times.length_rises_slots]

/-- It does not matter in which order the intervals are found. -/
theorem frequency_of_perm {times : ReportTimes} {gaps : List Float}
    (perm : (rises times.slots.toList).Perm gaps) :
    times.frequency = (gaps.mergeSort atMost)[middle]?.map (1000000.0 / ·) := by
  rw [frequency, representative, intervals_eq, mergeSort_atMost_eq_of_perm perm]

theorem frequency_eq (times : ReportTimes) :
    times.frequency =
      ((rises times.oldestFirst).mergeSort atMost)[middle]?.map (1000000.0 / ·) :=
  frequency_of_perm (rises_perm_of_isRotated ⟨times.cursor, rfl⟩)

end ReportTimes

/-! ## Values that are mapped -/

theorem neighbours_map {α β : Type} (f : α → β) (values : List α) :
    neighbours (values.map f) = (neighbours values).map (Prod.map f f) := by
  rw [neighbours, neighbours, ← List.map_rotate, List.zip_map]

theorem mem_of_mem_neighbours {α : Type} {values : List α} {pair : α × α}
    (mem : pair ∈ neighbours values) : pair.1 ∈ values ∧ pair.2 ∈ values := by
  obtain ⟨left, right⟩ := List.of_mem_zip mem
  exact ⟨left, List.mem_rotate.mp right⟩

section Mapped

variable {β : Type} [LT β] [DecidableLT β] {f : α → β} {values : List α}

omit [Sub α] in
/-- What keeps the order keeps which neighbours rise. -/
theorem filter_neighbours_map (lt : ∀ a ∈ values, ∀ b ∈ values, f a < f b ↔ a < b) :
    (neighbours (values.map f)).filter (fun pair => pair.1 < pair.2) =
      ((neighbours values).filter fun pair => pair.1 < pair.2).map (Prod.map f f) := by
  rw [neighbours_map, List.filter_map]
  refine congrArg _ (List.filter_congr fun pair mem => decide_eq_decide.mpr ?_)
  have inside := mem_of_mem_neighbours mem
  exact lt _ inside.1 _ inside.2

theorem rises_map [Sub β] {g : α → β} (lt : ∀ a ∈ values, ∀ b ∈ values, f a < f b ↔ a < b)
    (sub : ∀ a ∈ values, ∀ b ∈ values, a < b → f b - f a = g (b - a)) :
    rises (values.map f) = (rises values).map g := by
  rw [rises, filter_neighbours_map lt, rises, List.map_map, List.map_map]
  refine List.map_congr_left fun pair found => ?_
  obtain ⟨mem, rise⟩ := List.mem_filter.mp found
  have inside := mem_of_mem_neighbours mem
  exact sub _ inside.1 _ inside.2 (of_decide_eq_true rise)

end Mapped

/-! ## Times that are exact -/

/-- Every value of a window is a whole number that a double holds. -/
def Exact (window : List UInt64) : Prop := ∀ time ∈ window, time.toNat < wholeBound

instance (window : List UInt64) : Decidable (Exact window) := List.decidableBAll _ _

theorem Exact.sublist {window times : List UInt64} (exactly : Exact times)
    (inside : window.Sublist times) : Exact window :=
  fun time mem => exactly time (inside.subset mem)

/-- A rise is above zero and still exact. -/
theorem pos_and_small_of_mem_rises {window : List UInt64} (exactly : Exact window) {gap : UInt64}
    (mem : gap ∈ rises window) : 0 < gap ∧ gap.toNat < wholeBound := by
  obtain ⟨⟨a, b⟩, found, rfl⟩ := List.mem_map.mp mem
  obtain ⟨pair, rise⟩ := List.mem_filter.mp found
  have below : a.toNat < b.toNat := UInt64.lt_iff_toNat_lt.mp (of_decide_eq_true rise)
  have small := exactly b (mem_of_mem_neighbours pair).2
  have difference : (b - a).toNat = b.toNat - a.toNat :=
    UInt64.toNat_sub_of_le b a (UInt64.le_iff_toNat_le.mpr below.le)
  rw [UInt64.lt_iff_toNat_lt, difference]
  exact ⟨Nat.sub_pos_of_lt below, Nat.lt_of_le_of_lt (Nat.sub_le _ _) small⟩

/-- The same neighbours rise, as whole numbers and as doubles. -/
theorem filter_neighbours_map_toFloat {window : List UInt64} (exactly : Exact window) :
    (neighbours (window.map UInt64.toFloat)).filter (fun pair => pair.1 < pair.2) =
      ((neighbours window).filter fun pair => pair.1 < pair.2).map
        (Prod.map UInt64.toFloat UInt64.toFloat) :=
  filter_neighbours_map fun a mema b memb =>
    toFloat_lt_toFloat_iff (exactly a mema) (exactly b memb)

theorem rises_map_toFloat {window : List UInt64} (exactly : Exact window) :
    rises (window.map UInt64.toFloat) = (rises window).map UInt64.toFloat :=
  rises_map
    (fun a mema b memb => toFloat_lt_toFloat_iff (exactly a mema) (exactly b memb))
    fun _ _ b memb rise => toFloat_sub_toFloat rise (exactly b memb)

theorem mergeSort_map_toFloat {times : List UInt64} (exactly : Exact times) :
    (times.map UInt64.toFloat).mergeSort atMost =
      (times.mergeSort fun a b => a ≤ b).map UInt64.toFloat := by
  refine (List.map_mergeSort fun a mema b memb => ?_).symm
  exact (atMost_toFloat (exactly a mema) (exactly b memb)).symm

theorem unpack_million : (1000000.0 : Float).toModel.unpack = whole 1000000 := rfl

/-- The frequency at an interval is a positive number, neither infinite nor zero. -/
theorem exists_unpack_million_div {gap : UInt64} (pos : 0 < gap) (small : gap.toNat < wholeBound) :
    ∃ m e h, (1000000.0 / gap.toFloat).toModel.unpack = .finite .positive m e h :=
  exists_unpack_div (by decide) (by decide) unpack_million pos small

theorem exists_rise_of_frequencyOf {window : List UInt64} {frequency : Float}
    (found : frequency ∈ frequencyOf window) :
    ∃ gap ∈ rises window, frequency = 1000000.0 / gap.toFloat := by
  obtain ⟨gap, middle, rfl⟩ := Option.map_eq_some_iff.mp found
  exact ⟨gap, List.mem_mergeSort.mp (List.mem_of_getElem? middle), rfl⟩

/-- The frequency of a window of exact times is a number. -/
theorem isFinite_frequencyOf {window : List UInt64} (exactly : Exact window) {frequency : Float}
    (found : frequency ∈ frequencyOf window) : frequency.isFinite = true := by
  obtain ⟨gap, mem, rfl⟩ := exists_rise_of_frequencyOf found
  obtain ⟨pos, small⟩ := pos_and_small_of_mem_rises exactly mem
  obtain ⟨m, e, h, unpacked⟩ := exists_unpack_million_div pos small
  show (1000000.0 / gap.toFloat).toModel.unpack.isFinite = true
  rw [unpacked]
  rfl

/-- A ring whose slots are exact times has the frequency of their window. -/
theorem ReportTimes.frequency_of_times {times : ReportTimes} {window : List UInt64}
    (holds : times.oldestFirst = window.map UInt64.toFloat) (exactly : Exact window) :
    times.frequency = frequencyOf window := by
  have gaps : Exact (rises window) := fun gap mem => (pos_and_small_of_mem_rises exactly mem).2
  rw [frequency_eq, holds, rises_map_toFloat exactly, mergeSort_map_toFloat gaps,
    List.getElem?_map, Option.map_map]
  rfl

end InputGauge
