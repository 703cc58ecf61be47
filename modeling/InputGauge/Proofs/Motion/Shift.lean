import InputGauge.Proofs.Motion.Peak

/-!
# Moved clocks

A measurement reads nothing off a clock but how much time passed between syncs. Two gauges that see
the same events, one of them with a clock that is ahead of the other's, stay alike in everything but
the time of the last sync (`Alike`): they find the same pauses (`Alike.endsPause`), and their rings
hold times that are as far apart as the clocks, which makes no difference to the frequency
(`frequencyOf_map_later`). So every reading of the one is a reading of the other, and the times of
events other than syncs are not read at all (`readings_of_shifted`).
-/

namespace InputGauge

open Binary64

/-! ## Moved times -/

/-- A time that is moved by `c` microseconds. -/
def later (c : Int) (time : UInt64) : UInt64 := UInt64.ofNat (time.toNat + c).toNat

/-- A double holds the time, where it is and where it is moved to. -/
structure Movable (c : Int) (time : UInt64) : Prop where
  exactly : time.toNat < wholeBound
  low : 0 ≤ time.toNat + c
  high : time.toNat + c < wholeBound

section Moved

variable {c : Int} {a b : UInt64} {window : List UInt64}

theorem toNat_later (h : Movable c a) : ((later c a).toNat : Int) = a.toNat + c := by
  have bound : (a.toNat + c).toNat < 2 ^ 64 := by
    refine Nat.lt_of_lt_of_le ((Int.toNat_lt h.low).mpr h.high) ?_
    decide
  rw [later, UInt64.toNat_ofNat_of_lt' bound, Int.toNat_of_nonneg h.low]

theorem exact_later (h : Movable c a) : (later c a).toNat < wholeBound := by
  have high := h.high
  rw [← toNat_later h] at high
  exact Int.ofNat_lt.mp high

theorem later_lt_later_iff (ha : Movable c a) (hb : Movable c b) :
    later c a < later c b ↔ a < b := by
  rw [UInt64.lt_iff_toNat_lt, UInt64.lt_iff_toNat_lt, ← Int.ofNat_lt, toNat_later ha,
    toNat_later hb, Int.add_lt_add_iff_right, Int.ofNat_lt]

/-- The time between two times moves with neither. -/
theorem later_sub_later (ha : Movable c a) (hb : Movable c b) (rise : a < b) :
    later c b - later c a = b - a := by
  have moved := UInt64.toNat_sub_of_le _ _ (UInt64.le_of_lt ((later_lt_later_iff ha hb).mpr rise))
  have stayed := UInt64.toNat_sub_of_le _ _ (UInt64.le_of_lt rise)
  have first := toNat_later ha
  have second := toNat_later hb
  apply UInt64.toNat_inj.mp
  omega

theorem exact_map_later (movable : ∀ time ∈ window, Movable c time) :
    Exact (window.map (later c)) := by
  intro time mem
  obtain ⟨earlier, found, rfl⟩ := List.mem_map.mp mem
  exact exact_later (movable earlier found)

theorem frequencyOf_map_later (movable : ∀ time ∈ window, Movable c time) :
    frequencyOf (window.map (later c)) = frequencyOf window := by
  have same : rises (window.map (later c)) = (rises window).map id :=
    rises_map (fun a mema b memb => later_lt_later_iff (movable a mema) (movable b memb))
      fun a mema b memb => later_sub_later (movable a mema) (movable b memb)
  rw [frequencyOf, same, List.map_id, frequencyOf]

theorem lastOf_map {α β : Type} (f : α → β) (n : Nat) (values : List α) :
    lastOf n (values.map f) = (lastOf n values).map f := by
  rw [lastOf, lastOf, List.length_map, List.map_drop]

theorem lastFrequency_map_later (movable : ∀ time ∈ window, Movable c time) :
    History.lastFrequency (window.map (later c)) = History.lastFrequency window := by
  have movableLast : ∀ time ∈ lastOf 32 window, Movable c time := fun time mem =>
    movable time (List.mem_of_mem_drop mem)
  rw [History.lastFrequency, History.lastFrequency, List.length_map, lastOf_map,
    frequencyOf_map_later movableLast]

end Moved

/-- Two events that are the same but for their times. Those of syncs are `c` microseconds apart,
and doubles hold them; those of other events are any. -/
structure Shifted (c : Int) (e e' : Event) : Prop where
  kind : e'.kind = e.kind
  code : e'.code = e.code
  value : e'.value = e.value
  time : e.kind = .sync → (e'.time.toNat : Int) = e.time.toNat + c
  exactly : e.kind = .sync → e.time.toNat < wholeBound ∧ e'.time.toNat < wholeBound

instance (c : Int) (e e' : Event) : Decidable (Shifted c e e') :=
  decidable_of_iff
    (e'.kind = e.kind ∧ e'.code = e.code ∧ e'.value = e.value ∧
      (e.kind = .sync → (e'.time.toNat : Int) = e.time.toNat + c) ∧
      (e.kind = .sync → e.time.toNat < wholeBound ∧ e'.time.toNat < wholeBound))
    ⟨fun ⟨kind, code, value, time, exactly⟩ => ⟨kind, code, value, time, exactly⟩,
      fun shifted =>
        ⟨shifted.kind, shifted.code, shifted.value, shifted.time, shifted.exactly⟩⟩

namespace Shifted

variable {c : Int} {e e' : Event}

theorem movable (shifted : Shifted c e e') (sync : e.kind = .sync) : Movable c e.time where
  exactly := (shifted.exactly sync).1
  low := shifted.time sync ▸ Int.natCast_nonneg _
  high := shifted.time sync ▸ Int.ofNat_lt.mpr (shifted.exactly sync).2

theorem time_eq (shifted : Shifted c e e') (sync : e.kind = .sync) :
    e'.time = later c e.time := by
  apply UInt64.toNat_inj.mp
  apply Int.ofNat_inj.mp
  rw [shifted.time sync, toNat_later (shifted.movable sync)]

end Shifted

namespace MotionGauge

/-- Two gauges of which the second has seen what the first has, by a clock that is `c` microseconds
ahead. -/
structure Alike (c : Int) (g g' : MotionGauge) : Prop where
  net : g'.motion.net = g.motion.net
  peak : g'.motion.peak = g.motion.peak
  spinner : g'.spinner = g.spinner
  lastSync : g'.motion.lastSync = g.motion.lastSync.map (later c)
  movable : ∀ last ∈ g.motion.lastSync, Movable c last
  /-- What the slots held at the last pause is not moved. -/
  times : ∃ seen : List UInt64, (∀ time ∈ seen, Movable c time) ∧
    (∃ old, g.times.Holds old (seen.map UInt64.toFloat)) ∧
    ∃ old, g'.times.Holds old ((seen.map (later c)).map UInt64.toFloat)

section Step

variable {c : Int} {g g' : MotionGauge} {time : UInt64} {e e' : Event}

theorem Alike.filled (alike : Alike c g g') : g'.times.filled = g.times.filled := by
  obtain ⟨seen, -, ⟨old, holds⟩, old', holds'⟩ := alike.times
  rw [holds.filled, holds'.filled, List.length_map, List.length_map, List.length_map]

theorem Alike.statusLine (alike : Alike c g g') : g'.statusLine = g.statusLine := by
  unfold MotionGauge.statusLine Motion.distance
  rw [alike.net, alike.peak, alike.spinner]

theorem endsPause_some {last : UInt64} (found : g.motion.lastSync = some last) :
    g.endsPause time = true ↔ last.toNat + longestPause < time.toNat := by
  rw [MotionGauge.endsPause, found, decide_eq_true_iff, ofNatClamp_lt_iff]

/-- A pause is as long by either clock. -/
theorem Alike.endsPause (alike : Alike c g g') (movable : Movable c time) :
    g'.endsPause (later c time) = g.endsPause time := by
  cases found : g.motion.lastSync with
  | none =>
    have found' := alike.lastSync
    rw [found] at found'
    rw [MotionGauge.endsPause, found', MotionGauge.endsPause, found]
    rfl
  | some last =>
    have found' := alike.lastSync
    rw [found] at found'
    have moved := toNat_later (alike.movable last found)
    have movedTime := toNat_later movable
    rw [Bool.eq_iff_iff, endsPause_some found, endsPause_some found']
    omega

theorem Alike.restart (alike : Alike c g g') (movable : Movable c time) :
    Alike c (g.restart time) (g'.restart (later c time)) where
  net := rfl
  peak := rfl
  spinner := alike.spinner
  lastSync := rfl
  movable _ found := Option.some_inj.mp found ▸ movable
  times := ⟨[], fun _ mem => absurd mem List.not_mem_nil, ⟨_, g.times.holds_clear⟩,
    _, g'.times.holds_clear⟩

theorem Alike.report (alike : Alike c g g') (movable : Movable c time) :
    Alike c (g.report time) (g'.report (later c time)) := by
  obtain ⟨seen, movableSeen, ⟨old, holds⟩, old', holds'⟩ := alike.times
  have pushed : (g.report time).times.Holds old ((seen ++ [time]).map UInt64.toFloat) := by
    rw [List.map_append]
    exact holds.push time.toFloat
  have pushed' : (g'.report (later c time)).times.Holds old'
      (((seen ++ [time]).map (later c)).map UInt64.toFloat) := by
    rw [List.map_append, List.map_append]
    exact holds'.push (later c time).toFloat
  have movableNow : ∀ t ∈ seen ++ [time], Movable c t := by
    intro t mem
    rcases List.mem_append.mp mem with earlier | new
    · exact movableSeen t earlier
    · exact List.mem_singleton.mp new ▸ movable
  have exactly : Exact (seen ++ [time]) := fun t mem => (movableNow t mem).exactly
  constructor
  · exact alike.net
  · -- The rings hold different doubles; only as windows of whole times have they one frequency.
    show raisedPeak g'.motion.peak (g'.report (later c time)).times =
      raisedPeak g.motion.peak (g.report time).times
    rw [raisedPeak_of_holds pushed exactly, raisedPeak_of_holds pushed' (exact_map_later movableNow),
      lastFrequency_map_later movableNow, alike.peak]
  · exact alike.spinner
  · rfl
  · intro _ found
    exact Option.some_inj.mp found ▸ movable
  · exact ⟨seen ++ [time], movableNow, ⟨old, pushed⟩, old', pushed'⟩

theorem Alike.sync (alike : Alike c g g') (movable : Movable c time) :
    Alike c (g.sync time) (g'.sync (later c time)) := by
  rw [MotionGauge.sync, MotionGauge.sync, alike.endsPause movable]
  split
  · exact alike.restart movable
  · exact alike.report movable

theorem Alike.move (alike : Alike c g g') (delta : Int32) :
    Alike c (g.move delta) (g'.move delta) :=
  { alike with net := congrArg (· + delta) alike.net }

theorem Alike.spin (alike : Alike c g g') :
    Alike c { g with spinner := g.spinner.next } { g' with spinner := g'.spinner.next } :=
  { alike with spinner := congrArg Spinner.next alike.spinner }

/-- One more event by either clock shows the same and keeps the gauges alike. -/
theorem Alike.observe (alike : Alike c g g') (shifted : Shifted c e e') :
    Alike c (g.observe e).1 (g'.observe e').1 ∧ (g'.observe e').2 = (g.observe e).2 := by
  unfold MotionGauge.observe
  rw [shifted.kind]
  split
  · next sync =>
    rw [shifted.time_eq sync]
    have after := alike.sync (shifted.movable sync)
    exact ⟨after.spin, congrArg some after.statusLine⟩
  · rw [shifted.code, shifted.value]
    refine ⟨?_, rfl⟩
    split
    · exact alike.move _
    · exact alike
  · exact ⟨alike, rfl⟩

end Step

/-! ## A whole run -/

theorem alike_start (c : Int) : Alike c start start where
  net := rfl
  peak := rfl
  spinner := rfl
  lastSync := rfl
  movable last found := absurd found (Option.not_mem_none last)
  times := ⟨[], fun _ mem => absurd mem List.not_mem_nil,
    ⟨_, Ring.holds_empty (Nat.succ_pos 31) 0.0⟩, _, Ring.holds_empty (Nat.succ_pos 31) 0.0⟩

theorem Alike.observeAll {c : Int} {g g' : MotionGauge} {events shifted : List Event}
    (alike : Alike c g g') (pairs : List.Forall₂ (Shifted c) events shifted) :
    Alike c (Gauge.observeAll g events) (Gauge.observeAll g' shifted) := by
  induction pairs generalizing g g' with
  | nil => exact alike
  | cons pair _ ih => exact ih (alike.observe pair).1

/-- Events whose syncs are all moved by the same time are measured alike, whatever the times of the
others are: after as many events of either, the travel, the peak, to the bit, and whether the window
is filled are the same, the time of the last sync is moved by that time, and the next event shows
the same line, if it shows one. -/
theorem readings_of_shifted {c : Int} {events shifted : List Event}
    (pairs : List.Forall₂ (Shifted c) events shifted) (k : Nat) :
    let g := Gauge.observeAll start (events.take k)
    let g' := Gauge.observeAll start (shifted.take k)
    g'.motion.net = g.motion.net ∧ g'.motion.peak = g.motion.peak ∧
      g'.times.filled = g.times.filled ∧
      g'.motion.lastSync.map (fun last => (last.toNat : Int)) =
        g.motion.lastSync.map (fun last => last.toNat + c) ∧
      ∀ e e', events[k]? = some e → shifted[k]? = some e' → (g'.observe e').2 = (g.observe e).2 := by
  intro g g'
  have alike : Alike c g g' := (alike_start c).observeAll (List.forall₂_take k pairs)
  refine ⟨alike.net, alike.peak, alike.filled, ?_, fun e e' found found' => ?_⟩
  · rw [alike.lastSync, Option.map_map]
    exact Option.map_congr fun last mem => toNat_later (alike.movable last mem)
  · obtain ⟨inside, rfl⟩ := List.getElem?_eq_some_iff.mp found
    obtain ⟨inside', rfl⟩ := List.getElem?_eq_some_iff.mp found'
    exact (alike.observe (pairs.get inside inside')).2

/-- The paused run by a clock that is behind, with some motion before each sync. -/
def drawnRun (behind : UInt64) (motionTime : UInt64) : List Event :=
  pausedRun.flatMap fun e =>
    [{ kind := .relative, code := Event.motionX, value := 3, time := motionTime },
      { e with time := e.time - behind }]

theorem readings_of_shifted_drawnRun :
    List.Forall₂ (Shifted (-4000)) (drawnRun 0 7) (drawnRun 4000 9000000000) ∧
      (Gauge.observeAll start ((drawnRun 0 7).take 70)).times.filled = true ∧
      (Gauge.observeAll start ((drawnRun 4000 9000000000).take 70)).motion.peak =
        (Gauge.observeAll start ((drawnRun 0 7).take 70)).motion.peak :=
  have pairs : List.Forall₂ (Shifted (-4000)) (drawnRun 0 7) (drawnRun 4000 9000000000) := by
    decide +kernel
  ⟨pairs, by decide +kernel, (readings_of_shifted pairs 70).2.1⟩

end MotionGauge

end InputGauge
