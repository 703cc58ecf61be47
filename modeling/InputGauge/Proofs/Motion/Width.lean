import InputGauge.Proofs.Binary64.Decimal
import InputGauge.Proofs.Motion.Gaps
import InputGauge.Proofs.Watch.Row

/-!
# How wide the display of motion is

A status line is as long as its words and its two columns, and a column grows only when its number
is too long for it. The distance may lose digits in every report, but as long as it has no more than
eight its column stays as wide as it is. The peak only rises until a pause ends, and a higher peak
is not shorter. So between two pauses a line is shorter than the one before it only if the distance
was longer than its column (`shownLength_le_of_goesOn`).
-/

namespace InputGauge

open Binary64 Event History Terminal

/-- The characters that the distance and the peak take in their columns. -/
def Motion.shownLength (m : Motion) : Nat :=
  max 8 m.distance.toNat.repr.length + max 3 (fixed 1 m.peak).length

namespace MotionGauge

/-! ## A status line -/

theorem length_statusLine (g : MotionGauge) : g.statusLine.length = 53 + g.motion.shownLength := by
  have distance : (toString g.motion.distance.toNat).length =
    g.motion.distance.toNat.repr.length := rfl
  unfold statusLine Motion.shownLength
  simp only [String.length_append, Numeral.length_column, distance, String.length_singleton]
  show 34 + _ + 14 + _ + 4 + 1 = _
  omega

theorem return_not_mem_withPoint (places units : Nat) :
    '\r' ∉ (withPoint places units).toList := by
  have digits (n : Nat) : '\r' ∉ Nat.toDigits 10 n := fun mem =>
    absurd (Nat.isDigit_of_mem_toDigits (by decide) (Nat.le_refl 10) mem) (by decide)
  unfold withPoint
  split <;> simp [digits]

theorem return_not_mem_fixed (places : Nat) (x : Float) : '\r' ∉ (fixed places x).toList := by
  have sign (negative : Bool) : '\r' ∉ (if negative then "-" else "").toList := by
    revert negative
    decide
  rw [fixed]
  simp only
  split
  · decide
  · next negative _ =>
    rw [String.toList_append, List.mem_append, not_or]
    exact ⟨sign negative, by decide⟩
  · next negative m e _ =>
    rw [String.toList_append, List.mem_append, not_or]
    exact ⟨sign negative, return_not_mem_withPoint _ _⟩

theorem return_not_mem_statusLine (g : MotionGauge) : '\r' ∉ g.statusLine.toList := by
  have column {width : Nat} {s : String} (plain : '\r' ∉ s.toList) :
      '\r' ∉ (Numeral.column width s).toList := fun mem =>
    (Numeral.mem_column mem).elim (by decide) plain
  have distance : '\r' ∉ (Numeral.column 8 g.motion.distance.toNat.repr).toList := by
    refine column fun mem => ?_
    exact absurd (Numeral.isDigit_of_mem_repr mem) (by decide)
  have peak : '\r' ∉ (Numeral.column 3 (fixed 1 g.motion.peak)).toList :=
    column (return_not_mem_fixed 1 _)
  have glyph : '\r' ≠ g.spinner.glyph := g.spinner.return_ne_glyph
  unfold statusLine
  simp [distance, peak, glyph]

/-! ## The lines of some events -/

/-- What the line of a sync shows: the motion up to the sync, this one included. -/
def shownMotion (p : List Event × Event) : Motion :=
  (Gauge.observeAll start (p.1 ++ [p.2])).motion

theorem shownMotion_of_sync {p : List Event × Event} (sync : p.2.kind = .sync) :
    shownMotion p = ((Gauge.observeAll start p.1).sync p.2.time).motion := by
  rw [shownMotion, Gauge.observeAll_concat]
  show ((Gauge.observeAll start p.1).observe p.2).1.motion = _
  rw [observe_sync sync]

theorem lines_eq_map (events : List Event) :
    Gauge.lines start events =
      (syncs [] events).map fun p => ((Gauge.observeAll start p.1).sync p.2.time).statusLine := by
  have lines := Gauge.map_some_lines start events
  have shown : (syncs [] events).map (fun p => (Gauge.observe (Gauge.observeAll start p.1) p.2).2) =
      ((syncs [] events).map fun p =>
        ((Gauge.observeAll start p.1).sync p.2.time).statusLine).map some := by
    rw [List.map_map]
    refine List.map_congr_left fun p mem => ?_
    show ((Gauge.observeAll start p.1).observe p.2).2 = _
    rw [observe, kind_of_mem_syncs mem]
    rfl
  exact (List.map_inj_right fun _ _ => Option.some.inj).mp (lines.trans shown)

theorem return_not_mem_lines (events : List Event) :
    ∀ line ∈ Gauge.lines start events, '\r' ∉ line.toList := by
  intro line mem
  rw [lines_eq_map] at mem
  obtain ⟨p, -, rfl⟩ := List.mem_map.mp mem
  exact return_not_mem_statusLine _

theorem lengths_lines (events : List Event) :
    (Gauge.lines start events).map String.length =
      (syncs [] events).map fun p => 53 + (shownMotion p).shownLength := by
  rw [lines_eq_map, List.map_map]
  refine List.map_congr_left fun p mem => ?_
  rw [Function.comp_apply, length_statusLine, shownMotion_of_sync (kind_of_mem_syncs mem)]

/-! ## Between two pauses -/

theorem isAmount_peak {events : List Event} (exactly : Exact (syncTimes (sincePause events))) :
    IsAmount (Gauge.observeAll start events).motion.peak := by
  rcases List.mem_cons.mp (peaks_observeAll events exactly).1 with zero | found
  · rw [zero]
    exact isAmount_zero
  · obtain ⟨window, mem, found⟩ := List.mem_filterMap.mp found
    obtain ⟨gap, rise, same⟩ := exists_rise_of_frequencyOf found
    obtain ⟨pos, small⟩ := pos_and_small_of_mem_rises
      (exactly.sublist (sublist_of_mem_windows mem)) rise
    obtain ⟨m, e, h, unpacked⟩ := exists_unpack_million_div pos small
    rw [same]
    exact isAmount_of_unpack unpacked

/-- Events that end no pause do not lower the peak. -/
theorem peak_le_observeAll {events more : List Event}
    (known : (Gauge.observeAll start events).motion.peak.isNaN = false)
    (goesOn : ∀ seen e, seen ++ [e] <+: more → ¬ EndsPause (events ++ seen) e) :
    (Gauge.observeAll start events).motion.peak ≤
      (Gauge.observeAll start (events ++ more)).motion.peak := by
  induction more using List.reverseRecOn with
  | nil =>
    rw [List.append_nil]
    exact Binary64.le_refl known
  | append_singleton more e ih =>
    have earlier := ih fun seen e' front => goesOn seen e' (front.trans (List.prefix_append ..))
    have last := peak_le_observe (le_iff.mp earlier).2.1 (follows_observeAll (events ++ more))
      (goesOn more e (List.prefix_refl _))
    rw [← List.append_assoc, Gauge.observeAll_concat]
    exact Binary64.le_trans earlier last

/-- Up to the end of a pause, the peak at a sync is not lower than at the sync before. -/
theorem peak_shownMotion_le {events : List Event}
    {pair : (List Event × Event) × (List Event × Event)}
    (mem : pair ∈ successive (syncs [] events)) (goesOn : ¬ EndsPause pair.2.1 pair.2.2)
    (known : (shownMotion pair.1).peak.isNaN = false) :
    (shownMotion pair.1).peak ≤ (shownMotion pair.2).peak := by
  obtain ⟨between, more, silent⟩ := exists_between_of_mem_successive mem
  have split : pair.2.1 ++ [pair.2.2] =
      pair.1.1 ++ [pair.1.2] ++ (between ++ [pair.2.2]) := by simp [more]
  rw [shownMotion, shownMotion, split]
  refine peak_le_observeAll known fun seen e front => ?_
  rcases List.prefix_concat_iff.mp front with last | earlier
  · obtain ⟨rfl, rfl⟩ := List.append_singleton_inj.mp last
    rwa [List.append_assoc, List.singleton_append, ← more]
  · have found : e ∈ between := earlier.subset (by simp)
    exact fun pause => silent e found pause.1

/-- Between two pauses, a line is not shorter than the one before it if the distance there fits its
column. -/
theorem shownLength_le_of_goesOn {events : List Event} (exactly : Exact (syncTimes events))
    {pair : (List Event × Event) × (List Event × Event)}
    (mem : pair ∈ successive (syncs [] events)) (goesOn : ¬ EndsPause pair.2.1 pair.2.2)
    (fits : (shownMotion pair.1).distance.toNat < 100000000) :
    (shownMotion pair.1).shownLength ≤ (shownMotion pair.2).shownLength := by
  have exactAt {p : List Event × Event} (mem : p ∈ syncs [] events) :
      Exact (syncTimes (sincePause (p.1 ++ [p.2]))) :=
    Exact.sublist exactly ((syncTimes_sincePause_suffix _).sublist.trans
      (((prefix_of_mem_syncs mem).sublist.filter _).map _))
  have amount {p : List Event × Event} (mem : p ∈ syncs [] events) :
      IsAmount (shownMotion p).peak := isAmount_peak (exactAt mem)
  obtain ⟨left, right⟩ := mem_of_mem_successive mem
  have rises := peak_shownMotion_le mem goesOn (isNaN_of_isFinite (isFinite_peak (exactAt left)))
  have peak := length_fixed_le 1 (amount left) (amount right) rises
  have distance : (shownMotion pair.1).distance.toNat.repr.length ≤ 8 :=
    (Nat.length_repr_le_iff (by decide)).mpr fits
  unfold Motion.shownLength
  omega

end MotionGauge

end InputGauge
