import InputGauge.Proofs.Motion.Peak

/-!
# Gaps between reports

As long as time does not step back, the seam of a ring of times, from its newest time to its oldest,
falls. What rises is then a gap between two reports that followed each other directly
(`rises_of_ascending`). Two such reports are not a pause apart, or the second of them would have
ended it (`close_of_sincePause`). So a frequency always comes from a real interval, from one
microsecond to three seconds long, and is a positive number (`estimates_of_reports`).
-/

namespace InputGauge

open Binary64

/-- The time from each report to the next. -/
def gaps (times : List UInt64) : List UInt64 := (successive times).map fun pair => pair.2 - pair.1

/-- Times that do not step back. -/
def Ascending (times : List UInt64) : Prop := times.Pairwise (· ≤ ·)

/-! ## The seam falls -/

section Window

variable {times window : List UInt64}

theorem length_gaps (times : List UInt64) : (gaps times).length = times.length - 1 := by
  simp [gaps, successive]

theorem gaps_lastOf (n : Nat) (times : List UInt64) :
    gaps (lastOf (n + 1) times) = lastOf n (gaps times) := by
  rw [gaps, lastOf, successive_drop, List.map_drop, lastOf, length_gaps, Nat.sub_sub, Nat.add_comm]
  rfl

theorem mem_of_mem_successive {α : Type} {values : List α} {pair : α × α}
    (mem : pair ∈ successive values) : pair.1 ∈ values ∧ pair.2 ∈ values := by
  obtain ⟨left, right⟩ := List.of_mem_zip mem
  exact ⟨left, List.mem_of_mem_tail right⟩

theorem mem_successive_of_lastOf {α : Type} {n : Nat} {values : List α} {pair : α × α}
    (mem : pair ∈ successive (lastOf n values)) : pair ∈ successive values := by
  rw [lastOf, successive_drop] at mem
  exact List.mem_of_mem_drop mem

theorem Ascending.le_of_mem_successive (ascending : Ascending times) {pair : UInt64 × UInt64}
    (mem : pair ∈ successive times) : pair.1 ≤ pair.2 := by
  obtain ⟨i, left, right⟩ := mem_successive_iff.mp mem
  obtain ⟨inside, left⟩ := List.getElem?_eq_some_iff.mp left
  obtain ⟨insideNext, right⟩ := List.getElem?_eq_some_iff.mp right
  rw [← left, ← right]
  exact List.pairwise_iff_getElem.mp ascending i (i + 1) inside insideNext (Nat.lt_succ_self i)

theorem Ascending.first_le_last (ascending : Ascending window) {first last : UInt64}
    (atHead : first ∈ window.head?) (atEnd : last ∈ window.getLast?) : first ≤ last := by
  obtain ⟨rest, rfl⟩ := List.head?_eq_some_iff.mp atHead
  rcases List.mem_cons.mp (List.mem_of_getLast? atEnd) with rfl | later
  · exact UInt64.le_refl _
  · exact (List.pairwise_cons.mp ascending).1 _ later

/-- Of the neighbours in times that do not step back, only those rise that follow each other. -/
theorem Ascending.filter_neighbours (ascending : Ascending window) :
    (neighbours window).filter (fun pair => pair.1 < pair.2) =
      (successive window).filter fun pair => pair.1 < pair.2 := by
  rcases eq_or_ne window [] with rfl | nonempty
  · rfl
  · have seam := UInt64.not_lt.mpr (ascending.first_le_last (List.head_mem_head? nonempty)
      (List.getLast_mem_getLast? nonempty))
    rw [neighbours_eq_successive nonempty, List.filter_append,
      List.filter_singleton, decide_eq_false seam]
    exact List.append_nil _

theorem sub_ne_zero_iff_of_le {a b : UInt64} (le : a ≤ b) : b - a ≠ 0 ↔ a < b := by
  rw [← UInt64.pos_iff_ne_zero, UInt64.lt_iff_toNat_lt, UInt64.lt_iff_toNat_lt,
    UInt64.toNat_sub_of_le b a le]
  exact Nat.sub_pos_iff_lt

theorem rises_of_ascending (ascending : Ascending window) :
    rises window = (gaps window).filter (· ≠ 0) := by
  rw [rises, ascending.filter_neighbours, gaps, List.filter_map]
  refine congrArg _ (List.filter_congr fun pair mem => decide_eq_decide.mpr ?_)
  exact (sub_ne_zero_iff_of_le (ascending.le_of_mem_successive mem)).symm

theorem exists_report_of_mem_rises (ascending : Ascending window) {gap : UInt64}
    (mem : gap ∈ rises window) :
    ∃ report ∈ successive window, report.1 < report.2 ∧ gap = report.2 - report.1 := by
  rw [rises, ascending.filter_neighbours] at mem
  obtain ⟨report, found, rfl⟩ := List.mem_map.mp mem
  obtain ⟨follow, rise⟩ := List.mem_filter.mp found
  exact ⟨report, follow, of_decide_eq_true rise, rfl⟩

/-- There is a frequency as soon as more than sixteen gaps are not zero. -/
theorem isSome_frequencyOf (ascending : Ascending window) :
    (frequencyOf window).isSome = true ↔ 17 ≤ (gaps window).countP (· ≠ 0) := by
  rw [frequencyOf, Option.isSome_map, isSome_getElem?, List.length_mergeSort,
    rises_of_ascending ascending, ← List.countP_eq_length_filter, ReportTimes.middle]
  exact Nat.lt_iff_add_one_le

end Window

/-! ## Reports are not a pause apart -/

namespace History

theorem syncTimes_sincePause_suffix (events : List Event) :
    syncTimes (sincePause events) <:+ syncTimes events := by
  obtain ⟨before, split, -⟩ := sincePause_split events
  refine ⟨syncTimes before, ?_⟩
  rw [← congrArg syncTimes split, syncTimes, syncTimes, syncTimes, List.filter_append,
    List.map_append]

theorem lastSync_of_sincePause {events : List Event} {last : UInt64}
    (found : last ∈ (syncTimes (sincePause events)).getLast?) : last ∈ lastSync events := by
  obtain ⟨before, split⟩ := syncTimes_sincePause_suffix events
  rw [lastSync, ← split, List.getLast?_append, Option.mem_def.mp found]
  rfl

/-- Of two reports that follow each other since the last pause, the second ends none. -/
theorem close_of_sincePause (events : List Event) :
    ∀ pair ∈ successive (syncTimes (sincePause events)),
      pair.2.toNat ≤ pair.1.toNat + longestPause := by
  induction events using List.reverseRecOn with
  | nil =>
    intro pair mem
    cases mem
  | append_singleton events e ih =>
    intro pair mem
    rw [sincePause_concat] at mem
    split at mem
    · cases mem
    · next goesOn =>
      rw [syncTimes_concat] at mem
      split at mem
      · next sync =>
        rw [successive_concat] at mem
        rcases List.mem_append.mp mem with earlier | new
        · exact ih pair earlier
        · -- The last report is the last sync there was, so a pause after it would have ended here.
          obtain ⟨last, found, rfl⟩ := Option.map_eq_some_iff.mp (Option.mem_toList.mp new)
          refine Nat.not_lt.mp fun pause => goesOn ⟨sync, last, ?_, pause⟩
          exact lastSync_of_sincePause found
      · exact ih pair mem

/-- Without a pause, everything came since the last one. -/
theorem sincePause_eq_self {events : List Event}
    (close : ∀ pair ∈ successive (syncTimes events),
      pair.2.toNat ≤ pair.1.toNat + longestPause) : sincePause events = events := by
  induction events using List.reverseRecOn with
  | nil => rfl
  | append_singleton events e ih =>
    have goesOn : ¬ EndsPause events e := by
      rintro ⟨sync, last, found, pause⟩
      refine Nat.not_lt.mpr (close (last, e.time) ?_) pause
      rw [syncTimes_concat, if_pos sync, successive_concat]
      exact List.mem_append_right _ (Option.mem_toList.mpr (Option.mem_map_of_mem _ found))
    have earlier : ∀ pair ∈ successive (syncTimes events),
        pair.2.toNat ≤ pair.1.toNat + longestPause := fun pair mem => by
      refine close pair ?_
      rw [syncTimes_concat]
      split
      · rw [successive_concat]
        exact List.mem_append_left _ mem
      · exact mem
    rw [sincePause_concat, if_neg goesOn, ih earlier]

end History

/-! ## What a ring of reports estimates -/

namespace ReportTimes

/-- The pairs of neighbouring slots whose difference counts. -/
def rising (ring : ReportTimes) : List (Float × Float) :=
  ring.cyclicPairs.filter fun pair => pair.1 < pair.2

/-- What a filled ring estimates when these are the times of the reports. -/
structure EstimatesFrom (ring : ReportTimes) (times : List UInt64) : Prop where
  window : ring.oldestFirst = (lastOf 32 times).map UInt64.toFloat
  intervals : ring.intervals = ring.rising.map fun pair => pair.2 - pair.1
  /-- The pair of the newest time and the oldest does not count. -/
  seam : ∀ newest ∈ ring.oldestFirst.getLast?, ∀ oldest ∈ ring.oldestFirst.head?,
    (newest, oldest) ∉ ring.rising
  /-- What counts is the time from one report to the next. -/
  interval : ∀ pair ∈ ring.rising, ∃ report ∈ successive times,
    pair = (report.1.toFloat, report.2.toFloat) ∧ ∃ gap : UInt64,
      pair.2 - pair.1 = gap.toFloat ∧ gap.toNat = report.2.toNat - report.1.toNat ∧
      1 ≤ gap.toNat ∧ gap.toNat ≤ longestPause
  /-- It exists just when seventeen of the last times from one report to the next count. -/
  estimated : ring.frequency.isSome = true ↔ 17 ≤ (lastOf 31 (gaps times)).countP (· ≠ 0)
  frequency : ∀ frequency ∈ ring.frequency, ∃ gap : UInt64,
    1 ≤ gap.toNat ∧ gap.toNat ≤ longestPause ∧ 0.0 < gap.toFloat ∧
      frequency = 1000000.0 / gap.toFloat ∧ frequency.isFinite = true

/-- Whole times that do not step back rise where they follow each other and nowhere else. -/
theorem rising_perm {ring : ReportTimes} {window : List UInt64}
    (holds : ring.oldestFirst = window.map UInt64.toFloat) (exactly : Exact window)
    (ascending : Ascending window) :
    ring.rising.Perm (((successive window).filter fun pair => pair.1 < pair.2).map
      (Prod.map UInt64.toFloat UInt64.toFloat)) := by
  rw [← ascending.filter_neighbours, ← filter_neighbours_map_toFloat exactly, ← holds]
  exact ring.cyclicPairs_perm.filter _

/-- The time between two reports, as long as none is a pause after the one before it. -/
theorem toNat_gap {report : UInt64 × UInt64} (rise : report.1 < report.2)
    (close : report.2.toNat ≤ report.1.toNat + longestPause) :
    (report.2 - report.1).toNat = report.2.toNat - report.1.toNat ∧
      1 ≤ (report.2 - report.1).toNat ∧ (report.2 - report.1).toNat ≤ longestPause := by
  have difference := UInt64.toNat_sub_of_le _ _ (UInt64.le_of_lt rise)
  rw [difference]
  exact ⟨rfl, Nat.sub_pos_of_lt (UInt64.lt_iff_toNat_lt.mp rise), Nat.sub_le_iff_le_add'.mpr close⟩

theorem estimatesFrom_of_holds {ring : ReportTimes} {times : List UInt64}
    (holds : ring.oldestFirst = (lastOf 32 times).map UInt64.toFloat) (exactly : Exact times)
    (ascending : Ascending times)
    (close : ∀ pair ∈ successive times, pair.2.toNat ≤ pair.1.toNat + longestPause) :
    ring.EstimatesFrom times := by
  have exactWindow : Exact (lastOf 32 times) := exactly.sublist (List.drop_sublist ..)
  have ascendingWindow : Ascending (lastOf 32 times) := ascending.sublist (List.drop_sublist _ _)
  refine ⟨holds, ?_, ?_, fun pair counted => ?_, ?_, fun frequency found => ?_⟩
  · rw [intervals_eq, ← rises_slots]
    rfl
  · intro newest atEnd oldest atHead counted
    rw [holds, List.getLast?_map] at atEnd
    rw [holds, List.head?_map] at atHead
    obtain ⟨last, isLast, rfl⟩ := Option.map_eq_some_iff.mp atEnd
    obtain ⟨first, isFirst, rfl⟩ := Option.map_eq_some_iff.mp atHead
    have rise : last.toFloat < first.toFloat := of_decide_eq_true (List.mem_filter.mp counted).2
    rw [toFloat_lt_toFloat_iff (exactWindow _ (List.mem_of_getLast? isLast))
      (exactWindow _ (List.mem_of_head? isFirst))] at rise
    exact UInt64.not_lt.mpr (ascendingWindow.first_le_last isFirst isLast) rise
  · obtain ⟨report, found, rfl⟩ := List.mem_map.mp
      ((rising_perm holds exactWindow ascendingWindow).mem_iff.mp counted)
    obtain ⟨follow, rise⟩ := List.mem_filter.mp found
    have rise := of_decide_eq_true rise
    have later := exactWindow _ (mem_of_mem_successive follow).2
    have follow := mem_successive_of_lastOf follow
    exact ⟨report, follow, rfl, report.2 - report.1, toFloat_sub_toFloat rise later,
      toNat_gap rise (close _ follow)⟩
  · rw [frequency_of_times holds exactWindow, isSome_frequencyOf ascendingWindow, gaps_lastOf]
  · rw [frequency_of_times holds exactWindow] at found
    have finite := isFinite_frequencyOf exactWindow found
    obtain ⟨gap, mem, rfl⟩ := exists_rise_of_frequencyOf found
    obtain ⟨report, follow, rise, rfl⟩ := exists_report_of_mem_rises ascendingWindow mem
    obtain ⟨-, pos, short⟩ := toNat_gap rise (close _ (mem_successive_of_lastOf follow))
    obtain ⟨above, small⟩ := pos_and_small_of_mem_rises exactWindow mem
    have above : (0 : UInt64).toFloat < (report.2 - report.1).toFloat :=
      (toFloat_lt_toFloat_iff (by decide) small).mpr above
    exact ⟨report.2 - report.1, pos, short, above, rfl, finite⟩

end ReportTimes

namespace MotionGauge

open History

theorem isFinite_peak {events : List Event} (exactly : Exact (syncTimes (sincePause events))) :
    (Gauge.observeAll start events).motion.peak.isFinite = true := by
  rcases List.mem_cons.mp (peaks_observeAll events exactly).1 with zero | found
  · rw [zero]
    rfl
  · obtain ⟨window, mem, found⟩ := List.mem_filterMap.mp found
    exact isFinite_frequencyOf (exactly.sublist (sublist_of_mem_windows mem)) found

/-- A sync after which the window is valid raises the peak to the frequency of the window. -/
theorem peak_of_filled {g : MotionGauge} {e : Event} (h : e.kind = .sync)
    (filled : (g.observe e).1.times.filled = true) :
    (g.observe e).1.motion.peak = raise g.motion.peak (g.observe e).1.times.frequency := by
  rw [observe_sync h, sync] at filled ⊢
  split at filled
  · cases filled
  · next goesOn =>
    rw [if_neg goesOn]
    exact (raisedPeak_eq _ _).trans (congrArg _ (if_pos filled))

/-- Nothing else raises it. -/
theorem peak_of_not_filled {g : MotionGauge} {e : Event}
    (notFilled : ¬ (e.kind = .sync ∧ (g.observe e).1.times.filled = true)) :
    (g.observe e).1.motion.peak = g.motion.peak ∨ (g.observe e).1.motion.peak = 0.0 := by
  by_cases h : e.kind = .sync
  · have unfilled := fun filled => notFilled ⟨h, filled⟩
    rw [observe_sync h, sync] at unfilled ⊢
    split at unfilled
    · next pause =>
      rw [if_pos pause]
      exact .inr rfl
    · next goesOn =>
      rw [if_neg goesOn]
      exact .inl ((raisedPeak_eq _ _).trans (congrArg _ (if_neg unfilled)))
  · exact .inl (peak_of_not_sync h)

/-- As long as syncs do not step back and their times are below 2⁵³, the peak stays as it is or goes
back to zero unless a sync is handled with the window valid. Then it is raised to the frequency of
the ring, which comes from the times between reports that followed each other directly since the
last pause: those that are not zero count, each is from one microsecond to three seconds long, and
there is a frequency just when seventeen of the last 31 count. No peak is ever infinite or
not-a-number. -/
theorem estimates_of_reports (events : List Event)
    (ascending : (syncTimes events).Pairwise (· ≤ ·))
    (exactly : ∀ time ∈ syncTimes events, time.toNat < wholeBound)
    {seen : List Event} {e : Event} (handled : seen ++ [e] <+: events) :
    let before := Gauge.observeAll start seen
    let g := Gauge.observeAll start (seen ++ [e])
    g.motion.peak.isFinite = true ∧
      (e.kind = .sync ∧ g.times.filled = true ∨
        g.motion.peak = before.motion.peak ∨ g.motion.peak = 0.0) ∧
      (e.kind = .sync → g.times.filled = true →
        g.motion.peak = raise before.motion.peak g.times.frequency ∧
        g.times.EstimatesFrom (syncTimes (sincePause (seen ++ [e])))) := by
  have step : Gauge.observeAll start (seen ++ [e]) = ((Gauge.observeAll start seen).observe e).1 :=
    Gauge.observeAll_concat ..
  have sublist : (syncTimes (sincePause (seen ++ [e]))).Sublist (syncTimes events) :=
    (syncTimes_sincePause_suffix _).sublist.trans ((handled.sublist.filter _).map _)
  have exactTimes : Exact (syncTimes (sincePause (seen ++ [e]))) := Exact.sublist exactly sublist
  intro before g
  refine ⟨isFinite_peak exactTimes, ?_, fun sync filled => ⟨?_, ?_⟩⟩
  · refine or_iff_not_imp_left.mpr fun notFilled => ?_
    rw [show g = (before.observe e).1 from step] at notFilled ⊢
    exact peak_of_not_filled notFilled
  · rw [show g = (before.observe e).1 from step] at filled ⊢
    exact peak_of_filled sync filled
  · obtain ⟨old, holds⟩ := (follows_observeAll (seen ++ [e])).times
    rw [holds.filled, decide_eq_true_eq, List.length_map] at filled
    exact ReportTimes.estimatesFrom_of_holds (oldestFirst_of_holds holds filled) exactTimes
      (ascending.sublist sublist) (close_of_sincePause _)

/-- A sync at some time. -/
def syncAt (time : UInt64) : Event := { kind := .sync, code := 0, value := 0, time }

/-- A sync, a pause, and then 32 reports of which every third comes at once with the one before. -/
def pairedRun : List Event :=
  [syncAt 5000, syncAt 9000000] ++
    (List.range 32).map fun i => syncAt (9001000 + 1000 * (i - i % 3 / 2).toUInt64)

theorem estimates_of_reports_pairedRun :
    let g := Gauge.observeAll start (pairedRun ++ [syncAt 9033000])
    (syncTimes (pairedRun ++ [syncAt 9033000])).Pairwise (· ≤ ·) ∧
      (∀ time ∈ syncTimes (pairedRun ++ [syncAt 9033000]), time.toNat < wholeBound) ∧
      g.times.filled = true ∧
      g.motion.peak.isFinite = true ∧
      17 ≤ (lastOf 31 (gaps (syncTimes (sincePause (pairedRun ++ [syncAt 9033000]))))).countP
        (· ≠ 0) ∧
      g.times.EstimatesFrom (syncTimes (sincePause (pairedRun ++ [syncAt 9033000]))) :=
  have ascending : (syncTimes (pairedRun ++ [syncAt 9033000])).Pairwise (· ≤ ·) := by
    decide +kernel
  have exactly : Exact (syncTimes (pairedRun ++ [syncAt 9033000])) := by decide +kernel
  have filled : (Gauge.observeAll start (pairedRun ++ [syncAt 9033000])).times.filled = true := by
    decide +kernel
  have estimates := estimates_of_reports (pairedRun ++ [syncAt 9033000]) ascending exactly
    (List.prefix_refl _)
  ⟨ascending, exactly, filled, estimates.1, by decide +kernel, (estimates.2.2 rfl filled).2⟩

end MotionGauge

end InputGauge
