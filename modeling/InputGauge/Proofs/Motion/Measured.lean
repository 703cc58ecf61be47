import InputGauge.Proofs.Motion.History
import InputGauge.Proofs.Ring

/-!
# What a gauge of motion has measured

After any events, in any order and with clocks that may step back, a gauge holds what the history
says: the time of the last sync, the horizontal motion since the last pause in two's complement,
and the times of the syncs since the last pause, as far as its ring has room for them.

`MotionGauge.Follows` is that relation. One event keeps it (`Follows.observe`), so a whole history
does (`follows_observeAll`). A pause is judged in the gauge against the last sync that it
remembers, which is the one right before (`endsPause_iff`). `measured_since_pause` says what this
makes of everything that can be read off a gauge, the peak apart.
-/

namespace InputGauge.MotionGauge

open History

/-- The ring of a gauge holds the times of the syncs since the last pause. -/
def HoldsTimes (g : MotionGauge) (events : List Event) : Prop :=
  ∃ old, g.times.Holds old ((syncTimes (sincePause events)).map UInt64.toFloat)

/-- What a gauge holds after a history, but for the peak and the spinner. -/
structure Follows (g : MotionGauge) (events : List Event) : Prop where
  lastSync : g.motion.lastSync = lastSync events
  net : g.motion.net = Int32.ofInt (travel (sincePause events))
  times : g.HoldsTimes events

/-! ## One event -/

theorem observe_sync {g : MotionGauge} {e : Event} (h : e.kind = .sync) :
    (g.observe e).1 = { g.sync e.time with spinner := g.spinner.next } := by
  have spinner : (g.sync e.time).spinner = g.spinner := by
    unfold sync
    split <;> rfl
  simp only [observe, h, spinner]

theorem observe_motion {g : MotionGauge} {e : Event} (h : IsMotion e) :
    (g.observe e).1 = g.move e.value := by
  simp only [observe, h.1, h.2, ↓reduceIte]

theorem observe_other {g : MotionGauge} {e : Event} (notSync : e.kind ≠ .sync)
    (notMotion : ¬ IsMotion e) : (g.observe e).1 = g := by
  unfold observe
  split
  · next sync => exact absurd sync notSync
  · next relative => exact if_neg fun code => notMotion ⟨relative, code⟩
  · rfl

/-- No time lies past the largest one, so a sum that stays there is as good as one that goes on. -/
theorem ofNatClamp_lt_iff (n : Nat) (time : UInt64) :
    UInt64.ofNatClamp n < time ↔ n < time.toNat := by
  have bound := time.toNat_lt_size
  unfold UInt64.ofNatClamp
  split
  · rw [UInt64.lt_iff_toNat_lt, UInt64.toNat_ofNatLT]
  · next past =>
    rw [UInt64.lt_iff_toNat_lt, UInt64.toNat_ofNatLT]
    omega

/-- A gauge judges pauses as the history does, as far as whole numbers go. -/
theorem endsPause_iff {g : MotionGauge} {events : List Event} {e : Event}
    (last : g.motion.lastSync = lastSync events) (h : e.kind = .sync) :
    g.endsPause e.time = true ↔ EndsPause events e := by
  unfold endsPause EndsPause
  rw [last]
  cases lastSync events with
  | none => simp
  | some last => simp [h, ofNatClamp_lt_iff]

theorem Follows.restart {g : MotionGauge} {events : List Event} {e : Event}
    (h : e.kind = .sync) (ends : EndsPause events e) :
    (g.restart e.time).Follows (events ++ [e]) where
  lastSync := by rw [lastSync_concat, if_pos h]; rfl
  net := by rw [sincePause_concat, if_pos ends]; rfl
  times := by
    refine ⟨g.times.slots.toList, ?_⟩
    rw [sincePause_concat, if_pos ends]
    exact g.times.holds_clear

theorem Follows.report {g : MotionGauge} {events : List Event} {e : Event}
    (follows : g.Follows events) (h : e.kind = .sync) (goesOn : ¬ EndsPause events e) :
    (g.report e.time).Follows (events ++ [e]) where
  lastSync := by rw [lastSync_concat, if_pos h]; rfl
  net := by
    have notMotion : ¬ IsMotion e := fun motion => by simp [motion.1] at h
    rw [sincePause_concat, if_neg goesOn, travel_concat, if_neg notMotion, Int.add_zero]
    exact follows.net
  times := by
    obtain ⟨old, holds⟩ := follows.times
    refine ⟨old, ?_⟩
    rw [sincePause_concat, if_neg goesOn, syncTimes_concat, if_pos h, List.map_append]
    exact holds.push e.time.toFloat

theorem Follows.move {g : MotionGauge} {events : List Event} {e : Event}
    (follows : g.Follows events) (h : IsMotion e) : (g.move e.value).Follows (events ++ [e]) := by
  have notSync : e.kind ≠ .sync := by simp [h.1]
  have since := sincePause_concat_of_kind events notSync
  constructor
  · rw [lastSync_concat, if_neg notSync]
    exact follows.lastSync
  · rw [since, travel_concat, if_pos h, Int32.ofInt_add, ← follows.net, Int32.ofInt_toInt]
    rfl
  · rw [HoldsTimes, since, syncTimes_concat, if_neg notSync]
    exact follows.times

theorem Follows.skip {g : MotionGauge} {events : List Event} {e : Event}
    (follows : g.Follows events) (notSync : e.kind ≠ .sync) (notMotion : ¬ IsMotion e) :
    g.Follows (events ++ [e]) := by
  have since := sincePause_concat_of_kind events notSync
  constructor
  · rw [lastSync_concat, if_neg notSync]
    exact follows.lastSync
  · rw [since, travel_concat, if_neg notMotion, Int.add_zero]
    exact follows.net
  · rw [HoldsTimes, since, syncTimes_concat, if_neg notSync]
    exact follows.times

/-- The relation does not look at the spinner. -/
theorem Follows.spin {g : MotionGauge} {events : List Event} (follows : g.Follows events)
    (spinner : Spinner) : { g with spinner }.Follows events :=
  ⟨follows.lastSync, follows.net, follows.times⟩

/-- One more event keeps a gauge in step with the history. -/
theorem Follows.observe {g : MotionGauge} {events : List Event} (follows : g.Follows events)
    (e : Event) : (g.observe e).1.Follows (events ++ [e]) := by
  by_cases h : e.kind = .sync
  · rw [observe_sync h]
    refine Follows.spin ?_ _
    unfold sync
    split
    · next ends => exact .restart h ((endsPause_iff follows.lastSync h).mp ends)
    · next goesOn =>
      exact follows.report h fun ends => goesOn ((endsPause_iff follows.lastSync h).mpr ends)
  · by_cases motion : IsMotion e
    · rw [observe_motion motion]
      exact follows.move motion
    · rw [observe_other h motion]
      exact follows.skip h motion

/-! ## A whole history -/

theorem follows_start : start.Follows [] where
  lastSync := rfl
  net := rfl
  times := ⟨_, Ring.holds_empty (Nat.succ_pos 31) 0.0⟩

/-- A gauge that has seen a history from its start follows it. -/
theorem follows_observeAll (events : List Event) :
    (Gauge.observeAll start events).Follows events := by
  induction events using List.reverseRecOn with
  | nil => exact follows_start
  | append_singleton events e ih =>
    rw [Gauge.observeAll_concat]
    exact ih.observe e

/-! ## What can be read off -/

/-- The travel is exact just when it fits, whatever the sums on the way to it were. -/
theorem toInt_ofInt_eq_iff (n : Int) :
    (Int32.ofInt n).toInt = n ↔ Int32.minValue.toInt ≤ n ∧ n ≤ Int32.maxValue.toInt := by
  constructor
  · intro exact
    rw [← exact]
    exact ⟨Int32.minValue_le_toInt _, Int32.toInt_le _⟩
  · rintro ⟨low, high⟩
    exact Int32.toInt_ofInt_of_le low (Int.lt_of_le_of_lt high (by decide))

theorem natAbs_toInt_le (n : Int32) : n.toInt.natAbs ≤ 2147483648 := by
  have low := n.le_toInt
  have high := n.toInt_lt
  omega

/-- Even the magnitude of the lowest number fits. -/
theorem toNat_distance (m : Motion) : m.distance.toNat = m.net.toInt.natAbs :=
  UInt32.toNat_ofNat_of_lt' (Nat.lt_of_le_of_lt (natAbs_toInt_le _) (by decide))

/-- A gauge has the time of the last sync; the horizontal motion since the last pause, modulo 2³²
and so exactly when it fits; its magnitude; and a filled window just when 32 syncs came since the
last pause, the one that ended it not counted. Events that are neither syncs nor horizontal motion
leave the gauge as it is. -/
theorem measured_since_pause (events : List Event) :
    let g := Gauge.observeAll start events
    let since := sincePause events
    (∃ before, before ++ since = events ∧ CutAtPause before since) ∧
    g.motion.lastSync = lastSync events ∧
    g.motion.net = Int32.ofInt (travel since) ∧
    (g.motion.net.toInt = travel since ↔
      Int32.minValue.toInt ≤ travel since ∧ travel since ≤ Int32.maxValue.toInt) ∧
    g.motion.distance.toNat = g.motion.net.toInt.natAbs ∧
    g.motion.distance.toNat ≤ 2147483648 ∧
    (g.times.filled = true ↔ 32 ≤ (syncTimes since).length) ∧
    ∀ e : Event, e.kind = .sync ∨ IsMotion e ∨ Gauge.observeAll start (events ++ [e]) = g := by
  intro g since
  have follows := follows_observeAll events
  obtain ⟨old, holds⟩ := follows.times
  refine ⟨sincePause_split events, follows.lastSync, follows.net, ?_, toNat_distance _,
    toNat_distance _ ▸ natAbs_toInt_le _, ?_, fun e => ?_⟩
  · rw [follows.net]
    exact toInt_ofInt_eq_iff _
  · rw [holds.filled, decide_eq_true_eq, List.length_map]
  · by_cases sync : e.kind = .sync
    · exact .inl sync
    · by_cases motion : IsMotion e
      · exact .inr (.inl motion)
      · rw [Gauge.observeAll_concat]
        exact .inr (.inr (observe_other sync motion))

end InputGauge.MotionGauge
