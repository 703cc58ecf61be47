import InputGauge.Proofs.Motion.Interval
import InputGauge.Proofs.Motion.Measured

/-!
# The peak of a gauge of motion

Each sync that is one of a measurement's reports adds one window to those that the gauge has seen:
the last 32 times, this one included, as soon as there are so many (`windows_concat`). The gauge
compares the frequency of that window with its peak and keeps the higher one, so after a history
its peak is the highest frequency of all windows of the measurement (`Peaks.observe`,
`peak_isHighest`).

The windows are those of the times since the last pause in the order in which they came. Neither
the order of the ring's slots nor what stood in them before the pause takes part.
-/

namespace InputGauge

open Binary64

namespace History

/-- The windows of 32 times in a row, in order. -/
def windows (times : List UInt64) : List (List UInt64) :=
  (List.range (times.length - 31)).map fun i => (times.drop i).take 32

/-- The frequencies of the windows that have one. -/
def frequencies (times : List UInt64) : List Float := (windows times).filterMap frequencyOf

/-! ## Windows -/

/-- One more time makes one more window, which ends with it, as soon as it is full. -/
theorem windows_concat (times : List UInt64) (time : UInt64) :
    windows (times ++ [time]) =
      windows times ++ if 31 ≤ times.length then [lastOf 32 (times ++ [time])] else [] := by
  have length : (times ++ [time]).length = times.length + 1 := List.length_append
  rw [windows, length]
  split
  · next full =>
    have earlier : (List.range (times.length - 31)).map
        (fun i => ((times ++ [time]).drop i).take 32) = windows times := by
      refine List.map_congr_left fun i mem => ?_
      have inside := List.mem_range.mp mem
      have room : 32 ≤ (times.drop i).length := by
        rw [List.length_drop]
        omega
      rw [List.drop_append_of_le_length (by omega), List.take_append_of_le_length room]
    have last : ((times ++ [time]).drop (times.length - 31)).take 32 =
        lastOf 32 (times ++ [time]) := by
      rw [lastOf, length, Nat.add_sub_add_right times.length 1 31]
      refine List.take_of_length_le ?_
      rw [List.length_drop, length]
      omega
    -- The old windows end before the new time, so it does not change them.
    rw [Nat.sub_add_comm full, List.range_succ, List.map_append, earlier, List.map_singleton, last]
  · next short =>
    have none : times.length + 1 - 31 = 0 := by omega
    have noneBefore : times.length - 31 = 0 := by omega
    rw [none, windows, noneBefore]
    rfl

theorem exists_of_mem_windows {times window : List UInt64} (mem : window ∈ windows times) :
    ∃ i, i + 32 ≤ times.length ∧ window = (times.drop i).take 32 := by
  obtain ⟨i, inside, rfl⟩ := List.mem_map.mp mem
  have room : i + 31 < times.length := Nat.add_lt_of_lt_sub (List.mem_range.mp inside)
  exact ⟨i, room, rfl⟩

theorem sublist_of_mem_windows {times window : List UInt64} (mem : window ∈ windows times) :
    window.Sublist times := by
  obtain ⟨i, -, rfl⟩ := exists_of_mem_windows mem
  exact (List.take_sublist ..).trans (List.drop_sublist ..)

theorem length_of_mem_windows {times window : List UInt64} (mem : window ∈ windows times) :
    window.length = 32 := by
  obtain ⟨i, room, rfl⟩ := exists_of_mem_windows mem
  rw [List.length_take, List.length_drop, Nat.min_eq_left (Nat.le_sub_of_add_le' room)]

theorem length_windows (times : List UInt64) : (windows times).length = times.length - 31 := by
  rw [windows, List.length_map, List.length_range]

/-- The frequency of the last window, once there is one. -/
def lastFrequency (times : List UInt64) : Option Float :=
  if 32 ≤ times.length then frequencyOf (lastOf 32 times) else none

theorem frequencies_concat (times : List UInt64) (time : UInt64) :
    frequencies (times ++ [time]) =
      frequencies times ++ (lastFrequency (times ++ [time])).toList := by
  have full : 32 ≤ (times ++ [time]).length ↔ 31 ≤ times.length := by
    rw [List.length_append]
    exact Nat.succ_le_succ_iff
  simp only [frequencies, windows_concat, lastFrequency, full, List.filterMap_append]
  split
  · rw [List.filterMap_cons]
    cases frequencyOf (lastOf 32 (times ++ [time])) <;> rfl
  · rfl

theorem isNaN_lastFrequency {times : List UInt64} (exactly : Exact times) {frequency : Float}
    (found : frequency ∈ lastFrequency times) : frequency.isNaN = false := by
  unfold lastFrequency at found
  split at found
  · have window : Exact (lastOf 32 times) := exactly.sublist (List.drop_sublist ..)
    exact isNaN_of_isFinite (isFinite_frequencyOf window found)
  · cases found

end History

namespace MotionGauge

open History

/-! ## One event -/

theorem raisedPeak_eq (peak : Float) (times : ReportTimes) :
    raisedPeak peak times = raise peak (if times.filled then times.frequency else none) := by
  unfold raisedPeak
  split
  · next none => rw [none]; rfl
  · next found => rw [found]; rfl

/-- A filled ring holds the last 32 times and nothing else. -/
theorem oldestFirst_of_holds {times : ReportTimes} {old : List Float} {seen : List UInt64}
    (holds : times.Holds old (seen.map UInt64.toFloat)) (full : 32 ≤ seen.length) :
    times.oldestFirst = (lastOf 32 seen).map UInt64.toFloat := by
  rw [holds.oldestFirst_filled (List.length_map UInt64.toFloat ▸ full), lastOf, lastOf,
    List.length_map, List.map_drop]

theorem raisedPeak_of_holds {times : ReportTimes} {old : List Float} {seen : List UInt64}
    (holds : times.Holds old (seen.map UInt64.toFloat)) (exactly : Exact seen) (peak : Float) :
    raisedPeak peak times = raise peak (lastFrequency seen) := by
  rw [raisedPeak_eq, lastFrequency, holds.filled, List.length_map]
  by_cases full : 32 ≤ seen.length
  · have window := oldestFirst_of_holds holds full
    have exactWindow : Exact (lastOf 32 seen) := exactly.sublist (List.drop_sublist ..)
    rw [if_pos full, if_pos (decide_eq_true full), ReportTimes.frequency_of_times window exactWindow]
  · rw [if_neg full, if_neg (by simpa using full)]

/-- The peak is the highest frequency of the windows since the last pause, or zero. -/
def Peaks (g : MotionGauge) (events : List Event) : Prop :=
  IsHighest g.motion.peak (0.0 :: frequencies (syncTimes (sincePause events)))

theorem peaks_of_no_times {g : MotionGauge} {events : List Event} (zero : g.motion.peak = 0.0)
    (none : syncTimes (sincePause events) = []) : g.Peaks events := by
  rw [Peaks, zero, none]
  refine ⟨List.mem_cons_self, fun y mem => ?_⟩
  rw [List.mem_singleton.mp mem]
  exact Binary64.le_refl rfl

/-- The end of a pause starts the peaks again, whatever they were. -/
theorem peaks_of_endsPause {g : MotionGauge} {events : List Event} {e : Event}
    (follows : g.Follows events) (pause : EndsPause events e) :
    (g.observe e).1.Peaks (events ++ [e]) := by
  rw [observe_sync pause.1, sync, if_pos ((endsPause_iff follows.lastSync pause.1).mpr pause)]
  refine peaks_of_no_times rfl ?_
  rw [sincePause_concat, if_pos pause]
  rfl

theorem peak_of_not_sync {g : MotionGauge} {e : Event} (h : e.kind ≠ .sync) :
    (g.observe e).1.motion.peak = g.motion.peak := by
  by_cases motion : IsMotion e
  · rw [observe_motion motion]
    rfl
  · rw [observe_other h motion]

theorem peak_of_sync {g : MotionGauge} {events : List Event} {e : Event}
    (follows : g.Follows events) (h : e.kind = .sync) (goesOn : ¬ EndsPause events e) :
    (g.observe e).1.motion.peak = raisedPeak g.motion.peak (g.report e.time).times := by
  rw [observe_sync h, sync, if_neg fun pause => goesOn ((endsPause_iff follows.lastSync h).mp pause)]
  rfl

/-- An event that ends no pause keeps the peak the highest frequency. -/
theorem Peaks.observe {g : MotionGauge} {events : List Event} {e : Event} (peaks : g.Peaks events)
    (follows : g.Follows events) (goesOn : ¬ EndsPause events e)
    (exactly : Exact (syncTimes (sincePause (events ++ [e])))) :
    (g.observe e).1.Peaks (events ++ [e]) := by
  by_cases h : e.kind = .sync
  · have since : syncTimes (sincePause (events ++ [e])) =
        syncTimes (sincePause events) ++ [e.time] := by
      rw [sincePause_concat, if_neg goesOn, syncTimes_concat, if_pos h]
    obtain ⟨old, holds⟩ := (follows.report h goesOn).times
    rw [Peaks, peak_of_sync follows h goesOn, raisedPeak_of_holds holds exactly, since,
      frequencies_concat, ← List.cons_append, ← since]
    exact IsHighest.raise peaks fun frequency => isNaN_lastFrequency exactly
  · rw [Peaks, peak_of_not_sync h, sincePause_concat, if_neg goesOn, syncTimes_concat, if_neg h]
    exact peaks

/-- Only the end of a pause lowers the peak. -/
theorem peak_le_observe {g : MotionGauge} {events : List Event} {e : Event}
    (known : g.motion.peak.isNaN = false) (follows : g.Follows events)
    (goesOn : ¬ EndsPause events e) : g.motion.peak ≤ (g.observe e).1.motion.peak := by
  by_cases h : e.kind = .sync
  · rw [peak_of_sync follows h goesOn, raisedPeak_eq]
    exact le_raise known _
  · rw [peak_of_not_sync h]
    exact Binary64.le_refl known

/-! ## A whole history -/

theorem exact_of_concat {events : List Event} {e : Event} (goesOn : ¬ EndsPause events e)
    (exactly : Exact (syncTimes (sincePause (events ++ [e])))) :
    Exact (syncTimes (sincePause events)) := by
  rw [sincePause_concat, if_neg goesOn, syncTimes_concat] at exactly
  split at exactly
  · exact fun time mem => exactly time (List.mem_append_left _ mem)
  · exact exactly

theorem peaks_observeAll (events : List Event)
    (exactly : Exact (syncTimes (sincePause events))) :
    (Gauge.observeAll start events).Peaks events := by
  induction events using List.reverseRecOn with
  | nil => exact peaks_of_no_times rfl rfl
  | append_singleton events e ih =>
    have follows := follows_observeAll events
    rw [Gauge.observeAll_concat]
    by_cases pause : EndsPause events e
    · exact peaks_of_endsPause follows pause
    · exact (ih (exact_of_concat pause exactly)).observe follows pause exactly

/-- As long as the times since the last pause are below 2⁵³, the peak is the highest frequency of
the windows of 32 of them in a row, or zero. Only a sync changes it, and only the end of a pause
lowers it. -/
theorem peak_isHighest (events : List Event)
    (exactly : ∀ time ∈ syncTimes (sincePause events), time.toNat < wholeBound) :
    let peak (events : List Event) := (Gauge.observeAll start events).motion.peak
    IsHighest (peak events) (0.0 :: frequencies (syncTimes (sincePause events))) ∧
      (∀ e : Event, e.kind = .sync ∨ peak (events ++ [e]) = peak events) ∧
      ∀ e : Event, EndsPause events e ∨ peak events ≤ peak (events ++ [e]) := by
  intro peak
  have highest := peaks_observeAll events exactly
  have next (e : Event) :
      peak (events ++ [e]) = ((Gauge.observeAll start events).observe e).1.motion.peak := by
    show (Gauge.observeAll start (events ++ [e])).motion.peak = _
    rw [Gauge.observeAll_concat]
    rfl
  refine ⟨highest, fun e => ?_, fun e => ?_⟩
  · by_cases sync : e.kind = .sync
    · exact .inl sync
    · exact .inr ((next e).trans (peak_of_not_sync sync))
  · by_cases pause : EndsPause events e
    · exact .inl pause
    · rw [next e]
      exact .inr (peak_le_observe highest.isNaN (follows_observeAll events) pause)

/-- A sync, a pause, and then 33 reports a millisecond apart, of which one is late and the one
after it early. -/
def pausedRun : List Event :=
  let sync (time : UInt64) : Event := { kind := .sync, code := 0, value := 0, time }
  [sync 5000, sync 9000000] ++
    (List.range 33).map fun i => sync (9001000 + 1000 * if i = 20 then 25 else i.toUInt64)

theorem peak_isHighest_pausedRun :
    (∀ time ∈ syncTimes (sincePause pausedRun), time.toNat < wholeBound) ∧
      (windows (syncTimes (sincePause pausedRun))).length = 2 ∧
      IsHighest (Gauge.observeAll start pausedRun).motion.peak
        (0.0 :: frequencies (syncTimes (sincePause pausedRun))) :=
  have exactly : Exact (syncTimes (sincePause pausedRun)) := by decide +kernel
  ⟨exactly, by decide +kernel, (peak_isHighest pausedRun exactly).1⟩

end MotionGauge

end InputGauge
