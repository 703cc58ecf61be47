import InputGauge.Proofs.Motion.Interval

/-!
# The rank of the representative interval

Whatever doubles stand in the slots of a ring of times, be they not-a-number, infinities, zeros of
either sign or left from before, its frequency comes from the interval of one fixed rank
(`frequency_rank`): at most sixteen of the rising differences are below it in the total order, and
at least seventeen at or below it. There is such an interval just when seventeen of the pairs of
neighbouring slots rise.

Two things keep the rank from depending on where the cursor stands. Not every pair can rise, going
once round, so the room for 31 intervals never cuts one off. And slots that are rotated have the
same pairs in another order, which the sort forgets.
-/

namespace InputGauge

open Binary64

/-! ## Ranks in a sorted list -/

/-- In a sorted list, only what stands before a place can be below it, and all of that, with what
stands at the place, is at or below it. -/
theorem countP_of_getElem?_of_sorted {α : Type} {le : α → α → Bool} (refl : ∀ a, le a a)
    {sorted : List α} (ordered : sorted.Pairwise fun a b => le a b) {k : Nat} {g : α}
    (found : sorted[k]? = some g) :
    (sorted.countP fun a => !le g a) ≤ k ∧ k < sorted.countP fun a => le a g := by
  obtain ⟨inside, rfl⟩ := List.getElem?_eq_some_iff.mp found
  have split : sorted.take k ++ sorted[k] :: sorted.drop (k + 1) = sorted := by
    rw [List.getElem_cons_drop, List.take_append_drop]
  have before : (sorted.take k).length = k := List.length_take_of_le inside.le
  rw [← split, List.pairwise_append, List.pairwise_cons] at ordered
  obtain ⟨-, ⟨later, -⟩, earlier⟩ := ordered
  have noneLater : (sorted.drop (k + 1)).countP (fun a => !le sorted[k] a) = 0 := by
    refine List.countP_eq_zero.mpr fun a mem => ?_
    rw [later a mem]
    exact Bool.false_ne_true
  have allEarlier : (sorted.take k).countP (fun a => le a sorted[k]) = k := by
    refine (List.countP_eq_length.mpr fun a mem => ?_).trans before
    exact earlier a mem _ List.mem_cons_self
  constructor
  · calc sorted.countP (fun a => !le sorted[k] a)
        = (sorted.take k ++ sorted[k] :: sorted.drop (k + 1)).countP
            (fun a => !le sorted[k] a) := by rw [split]
      _ = (sorted.take k).countP fun a => !le sorted[k] a := by
          rw [List.countP_append, List.countP_cons_of_neg (by simp [refl]), noneLater, Nat.add_zero]
      _ ≤ k := List.countP_le_length.trans before.le
  · calc k
        < (sorted.take k).countP (fun a => le a sorted[k]) +
            ((sorted.drop (k + 1)).countP (fun a => le a sorted[k]) + 1) := by
          rw [allEarlier]
          exact Nat.lt_add_of_pos_right (Nat.succ_pos _)
      _ = (sorted.take k ++ sorted[k] :: sorted.drop (k + 1)).countP
            (fun a => le a sorted[k]) := by
          rw [List.countP_append, List.countP_cons, if_pos (refl _)]
      _ = sorted.countP fun a => le a sorted[k] := by rw [split]

/-- A sort moves nothing below or above anything, so the ranks are those of the list itself. -/
theorem countP_of_getElem?_mergeSort {gaps : List Float} {k : Nat} {g : Float}
    (found : (gaps.mergeSort atMost)[k]? = some g) :
    (gaps.countP fun gap => rank gap < rank g) ≤ k ∧
      k < gaps.countP fun gap => rank gap ≤ rank g := by
  have perm := List.mergeSort_perm gaps atMost
  have ordered := @List.pairwise_mergeSort _ atMost (fun _ _ _ => atMost_trans) atMost_total gaps
  have below : (fun gap => !atMost g gap) = fun gap => decide (rank gap < rank g) := by
    funext gap
    rw [atMost, ← decide_not, decide_eq_decide]
    exact not_le
  have counts := countP_of_getElem?_of_sorted (fun a => by simp [atMost]) ordered found
  rw [below, perm.countP_eq, perm.countP_eq] at counts
  exact counts

/-! ## The frequency of any slots -/

/-- What the frequency of a ring of times is, whatever its 32 slots hold. At most 31 of the pairs
of neighbouring slots rise, so no difference is cut off. Slots that are rotated, with the cursor
anywhere, have the same frequency. There is one just when at least 17 pairs rise, and then it is
that of a difference which at most 16 are below and at least 17 are not above, in the total order
on doubles. -/
theorem ReportTimes.frequency_rank (times : ReportTimes) :
    let rising := times.cyclicPairs.filter fun pair => pair.1 < pair.2
    let gaps := rising.map fun pair => pair.2 - pair.1
    times.cyclicPairs.length = 32 ∧ rising.length ≤ 31 ∧ times.intervals = gaps ∧
    (∀ other : ReportTimes, other.slots.toList.IsRotated times.slots.toList →
      other.frequency = times.frequency) ∧
    (times.frequency.isSome ↔ 17 ≤ rising.length) ∧
    ∀ frequency ∈ times.frequency, ∃ g ∈ gaps, frequency = 1000000.0 / g ∧
      (gaps.countP fun gap => rank gap < rank g) ≤ 16 ∧
      17 ≤ gaps.countP fun gap => rank gap ≤ rank g := by
  intro rising gaps
  have stored : gaps = rises times.slots.toList := times.rises_slots
  have length : rising.length = (gaps.mergeSort atMost).length := by
    rw [List.length_mergeSort, List.length_map]
  have selected : times.frequency =
      (gaps.mergeSort atMost)[ReportTimes.middle]?.map (1000000.0 / ·) :=
    ReportTimes.frequency_of_perm (stored ▸ List.Perm.refl _)
  refine ⟨by simp [Ring.cyclicPairs], ?_, ?_, fun other rotated => ?_, ?_,
    fun frequency found => ?_⟩
  · rw [length, List.length_mergeSort, stored]
    exact times.length_rises_slots
  · rw [times.intervals_eq, stored]
  · rw [selected, stored, ReportTimes.frequency_of_perm (rises_perm_of_isRotated rotated)]
  · rw [selected, Option.isSome_map, length, isSome_getElem?, ReportTimes.middle]
    exact Nat.lt_iff_add_one_le
  · rw [selected, Option.mem_def, Option.map_eq_some_iff] at found
    obtain ⟨g, place, rfl⟩ := found
    have mem : g ∈ gaps := List.mem_mergeSort.mp (List.mem_of_getElem? place)
    exact ⟨g, mem, rfl, countP_of_getElem?_mergeSort place⟩

/-- Twenty reports a millisecond apart, but for a microsecond either way, and slots that hold no
time: zeros, not-a-number and infinity. The cursor stands among the reports. -/
def ReportTimes.mixed : ReportTimes where
  slots := Vector.ofFn fun slot =>
    if slot.val < 20 then (UInt64.ofNat (5000 + 1000 * slot.val + slot.val % 2)).toFloat
    else if slot.val = 25 then 0.0 / 0.0
    else if slot.val = 27 then 1.0 / 0.0
    else 0.0
  cursor := 7
  filled := true

theorem ReportTimes.frequency_rank_mixed :
    let rising := mixed.cyclicPairs.filter fun pair => pair.1 < pair.2
    let gaps := rising.map fun pair => pair.2 - pair.1
    rising.length = 21 ∧ ∃ frequency ∈ mixed.frequency, ∃ g ∈ gaps, frequency = 1000000.0 / g ∧
      (gaps.countP fun gap => rank gap < rank g) ≤ 16 ∧
      17 ≤ gaps.countP fun gap => rank gap ≤ rank g := by
  intro rising gaps
  have length : rising.length = 21 := by decide +kernel
  obtain ⟨-, -, -, -, enough, ranked⟩ := mixed.frequency_rank
  obtain ⟨frequency, found⟩ := Option.isSome_iff_exists.mp (enough.mpr (length ▸ by decide))
  exact ⟨length, frequency, found, ranked frequency found⟩

end InputGauge
