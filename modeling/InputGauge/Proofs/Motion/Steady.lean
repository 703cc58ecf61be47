import InputGauge.Proofs.Motion.Gaps
import InputGauge.Proofs.Motion.Rank

/-!
# Steady reports

A device that reports once a period has that rate as its frequency, even if some of its reports are
late, early or at once with the one before: what stands in the middle of the sorted gaps is the
period as long as a majority of them are (`getElem?_mergeSort_of_majority`). Every window says the
same, so the peak is that rate from the first full window on (`peak_of_steady`).
-/

namespace InputGauge

open Binary64 History

/-! ## The majority stands in the middle -/

theorem count_le_countP {values : List UInt64} {p : UInt64} {counts : UInt64 → Bool}
    (h : counts p = true) : values.count p ≤ values.countP counts := by
  rw [List.count_eq_countP]
  refine List.countP_mono_left fun a _ same => ?_
  rw [eq_of_beq same]
  exact h

/-- What fills a list but for `k` others stands at place `k` of it, once it is sorted. -/
theorem getElem?_mergeSort_of_majority {values : List UInt64} {k : Nat} {p : UInt64}
    (enough : k < values.count p) (few : values.length ≤ k + values.count p) :
    (values.mergeSort fun a b => a ≤ b)[k]? = some p := by
  have perm := List.mergeSort_perm values fun a b => a ≤ b
  have ordered : (values.mergeSort fun a b => a ≤ b).Pairwise fun a b => decide (a ≤ b) = true :=
    (List.pairwise_mergeSort' (· ≤ ·) values).imp fun le => decide_eq_true le
  have inside : k < (values.mergeSort fun a b => a ≤ b).length := by
    rw [List.length_mergeSort]
    exact Nat.lt_of_lt_of_le enough List.count_le_length
  have found := List.getElem?_eq_getElem inside
  generalize (values.mergeSort fun a b => a ≤ b)[k] = g at found
  obtain ⟨below, upTo⟩ := countP_of_getElem?_of_sorted (fun a => by simp) ordered found
  rw [perm.countP_eq] at below upTo
  -- If it were above `p`, all of the majority would be below it; if below, all of them above it.
  have notHigher : ¬ p < g := fun higher => by
    have counted : values.count p ≤ values.countP fun a => !decide (g ≤ a) :=
      count_le_countP (by simpa using higher)
    exact Nat.not_lt.mpr (Nat.le_trans counted below) enough
  have notLower : ¬ g < p := fun lower => by
    have counted : values.count p ≤ values.countP fun a => decide ¬ decide (a ≤ g) = true :=
      count_le_countP (by simpa using lower)
    have strict : k + values.count p < values.length :=
      calc k + values.count p
          < values.countP (fun a => decide (a ≤ g)) +
              values.countP (fun a => decide ¬ decide (a ≤ g) = true) :=
            Nat.add_lt_add_of_lt_of_le upTo counted
        _ = values.length := List.length_eq_countP_add_countP _ |>.symm
    exact Nat.not_le.mpr strict few
  rw [found, UInt64.le_antisymm (UInt64.not_lt.mp notHigher) (UInt64.not_lt.mp notLower)]

section Rate

variable {period : UInt64} {times : List UInt64}

theorem count_rises (pos : 0 < period) {window : List UInt64} (ascending : Ascending window) :
    (rises window).count period = (gaps window).count period := by
  rw [rises_of_ascending ascending]
  exact List.count_filter (decide_eq_true (UInt64.pos_iff_ne_zero.mp pos))

/-- A window in which most gaps are one period has its rate as the frequency. -/
theorem frequencyOf_of_majority (pos : 0 < period) {window : List UInt64}
    (ascending : Ascending window) (length : window.length = 32)
    (majority : 17 ≤ (gaps window).count period) :
    frequencyOf window = some (1000000.0 / period.toFloat) := by
  rw [← count_rises pos ascending] at majority
  have few : (rises window).length ≤ ReportTimes.middle + (rises window).count period :=
    calc (rises window).length
        ≤ (gaps window).length := by
          rw [rises_of_ascending ascending]
          exact List.length_filter_le _ _
      _ = 31 := by rw [length_gaps, length]
      _ ≤ 16 + 17 := by decide
      _ ≤ ReportTimes.middle + (rises window).count period := Nat.add_le_add_left majority 16
  have middle : ((rises window).mergeSort fun a b => a ≤ b)[ReportTimes.middle]? = some period :=
    getElem?_mergeSort_of_majority majority few
  rw [frequencyOf, middle]
  rfl

/-- Reports that come once a period, but for a minority in any window of 32. -/
structure Steady (period : UInt64) (times : List UInt64) : Prop where
  ascending : times.Pairwise (· ≤ ·)
  exactly : ∀ time ∈ times, time.toNat < wholeBound
  /-- No report ends a pause. -/
  close : ∀ gap ∈ gaps times, gap.toNat ≤ longestPause
  /-- The other gaps of a window are any. -/
  mostly : ∀ window ∈ windows times, 17 ≤ (gaps window).count period

/-- Times that are one period apart. -/
def Evenly (first : Nat) (period : UInt64) (times : List UInt64) : Prop :=
  ∀ i time, times[i]? = some time → time.toNat = first + i * period.toNat

theorem Steady.window (steady : Steady period times) {window : List UInt64}
    (mem : window ∈ windows times) : Ascending window ∧ Exact window ∧ window.length = 32 := by
  have sublist := sublist_of_mem_windows mem
  exact ⟨steady.ascending.sublist sublist, Exact.sublist steady.exactly sublist,
    length_of_mem_windows mem⟩

/-- A period that most gaps are is exact as a double. -/
theorem Steady.rate_pos (pos : 0 < period) (steady : Steady period times)
    (full : 0 < (windows times).length) : 0.0 < 1000000.0 / period.toFloat := by
  obtain ⟨window, mem⟩ := List.exists_mem_of_length_pos full
  obtain ⟨ascending, exactly, -⟩ := steady.window mem
  have some : 0 < (rises window).count period := by
    rw [count_rises pos ascending]
    exact Nat.lt_of_lt_of_le (by decide) (steady.mostly window mem)
  obtain ⟨-, small⟩ := pos_and_small_of_mem_rises exactly (List.count_pos_iff.mp some)
  obtain ⟨m, e, h, unpacked⟩ := exists_unpack_million_div pos small
  exact pos_of_unpack unpacked

theorem Steady.frequencies (pos : 0 < period) (steady : Steady period times) :
    frequencies times = List.replicate (windows times).length (1000000.0 / period.toFloat) := by
  have same : ∀ window ∈ windows times,
      frequencyOf window = some (1000000.0 / period.toFloat) := fun window mem => by
    obtain ⟨ascending, -, length⟩ := steady.window mem
    exact frequencyOf_of_majority pos ascending length (steady.mostly window mem)
  rw [History.frequencies, List.filterMap_congr same, ← List.map_const']
  exact congrFun List.filterMap_eq_map' _

theorem Steady.sincePause {events : List Event} (steady : Steady period (syncTimes events)) :
    sincePause events = events := by
  refine sincePause_eq_self fun pair mem => ?_
  have close := steady.close _ (List.mem_map_of_mem mem)
  rw [UInt64.toNat_sub_of_le _ _ (Ascending.le_of_mem_successive steady.ascending mem)] at close
  exact Nat.sub_le_iff_le_add'.mp close

theorem Steady.peak (pos : 0 < period) {events : List Event}
    (steady : Steady period (syncTimes events)) :
    (Gauge.observeAll MotionGauge.start events).motion.peak =
      if (syncTimes events).length < 32 then 0.0 else 1000000.0 / period.toFloat := by
  have highest := MotionGauge.peaks_observeAll events (steady.sincePause.symm ▸ steady.exactly)
  rw [MotionGauge.Peaks, steady.sincePause, steady.frequencies pos] at highest
  rw [highest.eq_of_replicate (steady.rate_pos pos)]
  refine if_congr ?_ rfl rfl
  rw [length_windows, Nat.sub_eq_zero_iff_le]
  exact Nat.lt_succ_iff.symm

/-! ## Even reports -/

theorem Evenly.eq_period {first : Nat} (even : Evenly first period times) :
    ∀ gap ∈ gaps times, period = gap := by
  intro gap mem
  obtain ⟨⟨a, b⟩, follow, rfl⟩ := List.mem_map.mp mem
  obtain ⟨i, left, right⟩ := mem_successive_iff.mp follow
  have earlier : a.toNat = first + i * period.toNat := even i a left
  have later : b.toNat = first + (i + 1) * period.toNat := even (i + 1) b right
  rw [Nat.succ_mul, ← Nat.add_assoc, ← earlier] at later
  have le : a ≤ b := UInt64.le_iff_toNat_le.mpr (later ▸ Nat.le_add_right _ _)
  apply UInt64.toNat_inj.mp
  rw [UInt64.toNat_sub_of_le b a le, later, Nat.add_sub_cancel_left]

theorem Evenly.window {first : Nat} (even : Evenly first period times) (i : Nat) :
    Evenly (first + i * period.toNat) period ((times.drop i).take 32) := by
  intro j time found
  rw [List.getElem?_take, List.getElem?_drop] at found
  obtain ⟨-, inside⟩ := Option.ite_none_right_eq_some.mp found
  rw [even (i + j) time inside, Nat.add_mul, Nat.add_assoc]

theorem Evenly.steady {first : Nat} (even : Evenly first period times)
    (short : period.toNat ≤ longestPause) (exactly : Exact times) : Steady period times where
  ascending := List.pairwise_iff_getElem.mpr fun i j insidei insidej before => by
    have earlier := even i _ (List.getElem?_eq_getElem insidei)
    have later := even j _ (List.getElem?_eq_getElem insidej)
    rw [UInt64.le_iff_toNat_le, earlier, later]
    exact Nat.add_le_add_left (Nat.mul_le_mul_right _ before.le) first
  exactly := exactly
  close gap mem := even.eq_period gap mem ▸ short
  mostly window mem := by
    have length := length_of_mem_windows mem
    obtain ⟨i, -, rfl⟩ := exists_of_mem_windows mem
    rw [List.count_eq_length.mpr (even.window i).eq_period, length_gaps, length]
    decide

end Rate

namespace MotionGauge

/-- Whatever other events there are, reports that come once a period, but for at most fourteen of
the 31 gaps in any window of 32, measure the rate of that period as soon as there are 32 of them, and
nothing before. Reports one period apart, of at most three seconds, are such reports. -/
theorem peak_of_steady {period : UInt64} (pos : 0 < period) (events : List Event) :
    let times := syncTimes events
    let peak := (Gauge.observeAll start events).motion.peak
    (Steady period times →
      peak = if times.length < 32 then 0.0 else 1000000.0 / period.toFloat) ∧
    ∀ first, Evenly first period times → period.toNat ≤ longestPause →
      (∀ time ∈ times, time.toNat < wholeBound) →
      peak = if times.length < 32 then 0.0 else 1000000.0 / period.toFloat := by
  intro times peak
  refine ⟨fun steady => steady.peak pos, fun first even short exactly => ?_⟩
  exact (even.steady short exactly).peak pos

/-- Forty reports, one a millisecond but for every fifth, which is late, with some motion before
each of them whose times are all the same. -/
def lateRun : List Event :=
  (List.range 40).flatMap fun i =>
    let time := 9001000 + 1000 * i.toUInt64 + if i % 5 = 0 then 300 else 0
    [{ kind := .relative, code := Event.motionX, value := 1, time := 7 }, syncAt time]

theorem peak_of_steady_lateRun :
    (0 : UInt64) < 1000 ∧ Steady 1000 (syncTimes lateRun) ∧
      (Gauge.observeAll start lateRun).motion.peak = 1000000.0 / (1000 : UInt64).toFloat :=
  have exactly : Exact (syncTimes lateRun) := by decide +kernel
  have close : (gaps (syncTimes lateRun)).all (·.toNat ≤ longestPause) = true := by decide +kernel
  have steady : Steady 1000 (syncTimes lateRun) :=
    { ascending := by decide +kernel
      exactly
      close gap mem := of_decide_eq_true (List.all_eq_true.mp close gap mem)
      mostly := by decide +kernel }
  have full : ¬ (syncTimes lateRun).length < 32 := by decide +kernel
  ⟨by decide, steady, ((peak_of_steady (by decide) lateRun).1 steady).trans (if_neg full)⟩

end MotionGauge

end InputGauge
